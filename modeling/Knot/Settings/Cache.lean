import Knot.Settings.Load

/-!
Keeping settings. The first settings that load well are kept, as the same object, until they are
cleared; settings that do not load are not kept, and those made with arguments neither use nor
change what is kept.
-/

namespace Knot.Settings

/-- Settings as an object: `serial` tells two objects with the same fields apart. -/
structure Loaded where
  serial : Nat
  settings : Settings
  deriving DecidableEq, Repr

structure Cache where
  sources : Sources := {}
  kept : Option Loaded := none
  made : Nat := 0

namespace Cache

def setVariable (cache : Cache) (name : String) (text : Option String) : Cache :=
  let environment := match text with
    | some text => cache.sources.environment.assign name text
    | none => cache.sources.environment.erase name
  { cache with sources := { cache.sources with environment } }

def setFile (cache : Cache) (file : Option String) : Cache :=
  { cache with sources := { cache.sources with file } }

def clear (cache : Cache) : Cache := { cache with kept := none }

/-- Makes settings of arguments and sources. -/
def make (cache : Cache) (arguments : Bindings String Value) :
    Except (List Complaint) Loaded × Cache :=
  match load arguments cache.sources with
  | .ok settings => (.ok ⟨cache.made, settings⟩, { cache with made := cache.made + 1 })
  | .error complaints => (.error complaints, cache)

/-- The settings that are kept, or else made and kept. -/
def get (cache : Cache) : Except (List Complaint) Loaded × Cache :=
  match cache.kept with
  | some loaded => (.ok loaded, cache)
  | none =>
      match cache.make [] with
      | (.ok loaded, cache) => (.ok loaded, { cache with kept := some loaded })
      | (.error complaints, cache) => (.error complaints, cache)

theorem get_of_kept {cache : Cache} {loaded : Loaded} (h : cache.kept = some loaded) :
    cache.get = (.ok loaded, cache) := by
  simp [get, h]

theorem kept_get_of_ok {cache : Cache} {loaded : Loaded} (h : cache.get.1 = .ok loaded) :
    cache.get.2.kept = some loaded := by
  unfold get at h ⊢
  split at h
  · simp_all
  · split at h <;> simp_all

end Cache

end Knot.Settings
