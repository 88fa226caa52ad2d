import Mathlib.Data.List.Induction
import Mathlib.Logic.Function.Basic

/-!
# Dictionaries with string keys

Library `Base`. A dictionary is read by key only, so it is the partial function of its keys;
the order in which keys were inserted is not observable here. `merge` is the object spread
of two dictionaries, the second one winning.
-/

namespace VisionGame.Base

/-- Dictionary from strings to values. -/
abbrev Dict (V : Type) := String → Option V

namespace Dict

variable {V : Type}

/-- The dictionary without keys. -/
def empty : Dict V := fun _ ↦ none

/-- Value of a key, or a default when the key is missing. -/
def getD (d : Dict V) (k : String) (default : V) : V := (d k).getD default

/-- Bind a key, whether or not it was bound. -/
def set (d : Dict V) (k : String) (v : V) : Dict V := Function.update d k (some v)

/-- Keys of both dictionaries; where both bind a key the second one wins. -/
def merge (d e : Dict V) : Dict V := fun k ↦ (e k).or (d k)

/-- Dictionary of a list of bindings; a later binding of a key wins. -/
def ofList (kvs : List (String × V)) : Dict V :=
  kvs.foldl (fun d kv ↦ d.set kv.1 kv.2) empty

/-- The empty dictionary has no value. -/
@[simp] theorem empty_apply (k : String) : (empty : Dict V) k = none := rfl

/-- A key that is set has its value. -/
@[simp] theorem set_self (d : Dict V) (k : String) (v : V) : d.set k v k = some v :=
  Function.update_self ..

/-- The other keys keep theirs. -/
@[simp] theorem set_of_ne (d : Dict V) {k l : String} (v : V) (h : l ≠ k) :
    d.set k v l = d l :=
  Function.update_of_ne h ..

/-- Value of a key after one has been set. -/
theorem set_apply (d : Dict V) (k l : String) (v : V) :
    d.set k v l = if l = k then some v else d l := by
  by_cases h : l = k <;> simp [h]

/-- The second dictionary comes first. -/
@[simp] theorem merge_apply (d e : Dict V) (k : String) : d.merge e k = (e k).or (d k) := rfl

/-- A value in the dictionary of a list of bindings comes from one of them. -/
theorem exists_of_ofList {kvs : List (String × V)} {k : String} {v : V}
    (h : ofList kvs k = some v) : ∃ kv ∈ kvs, kv.2 = v := by
  induction kvs using List.reverseRecOn with
  | nil => cases h
  | append_singleton kvs kv ih =>
    have hset : ofList (kvs ++ [kv]) = (ofList kvs).set kv.1 kv.2 := by
      simp only [ofList]
      rw [List.foldl_append]
      rfl
    rw [hset, set_apply] at h
    split at h
    · exact ⟨kv, by simp, Option.some.inj h⟩
    · have ⟨old, hold, hv⟩ := ih h
      exact ⟨old, List.mem_append_left _ hold, hv⟩

/-- Keys the second dictionary does not bind keep their value. -/
theorem merge_of_none (d : Dict V) {e : Dict V} {k : String} (h : e k = none) :
    d.merge e k = d k := by
  simp [h]

/-- Keys the second dictionary binds take its value. -/
theorem merge_of_some (d : Dict V) {e : Dict V} {k : String} {v : V} (h : e k = some v) :
    d.merge e k = some v := by
  simp [h]

/-- Merging the empty dictionary changes nothing. -/
@[simp] theorem merge_empty (d : Dict V) : d.merge empty = d := by
  funext k
  simp

/-- Binding a key of the winning dictionary binds it in the union. -/
theorem merge_set (d e : Dict V) (k : String) (v : V) :
    d.merge (e.set k v) = (d.merge e).set k v := by
  funext l
  by_cases h : l = k
  · subst h
    simp
  · simp [h]

end Dict
end VisionGame.Base
