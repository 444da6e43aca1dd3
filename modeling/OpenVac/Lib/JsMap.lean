/-
  File:      OpenVac/Lib/JsMap.lean
  Subject:   JavaScript's `Map`: entries in the order in which their keys were first set.

  * `JsMap.get_set`, `JsMap.keys_set` -- what setting a key changes.
  * `JsMap.keys_set_eraseDups` -- the keys are those set so far, each at its first place.
  * `JsMap.mem_iff_get`, `JsMap.values_eq` -- a map of distinct keys is known by its keys and what
    they get.
-/
import Mathlib.Data.List.Induction
import Mathlib.Data.List.Nodup

namespace OpenVac

abbrev JsMap (κ α : Type) := List (κ × α)

namespace JsMap

section FirstOccurrences

variable {κ : Type} [BEq κ] [LawfulBEq κ]

/-- One more key among those set: at the end if it is new. -/
theorem eraseDups_concat (done : List κ) (key : κ) :
    (done ++ [key]).eraseDups =
      if key ∈ done.eraseDups then done.eraseDups else done.eraseDups ++ [key] := by
  rw [List.eraseDups_append]
  by_cases hkey : key ∈ done
  · rw [if_pos (List.mem_eraseDups.mpr hkey)]
    simp [List.removeAll, hkey]
  · rw [if_neg fun hmem => hkey (List.mem_eraseDups.mp hmem)]
    simp [List.removeAll, hkey, List.eraseDups_cons]

theorem nodup_eraseDups (done : List κ) : done.eraseDups.Nodup := by
  induction done using List.reverseRecOn with
  | nil => exact List.nodup_nil
  | append_singleton done key ih =>
    rw [eraseDups_concat]
    by_cases hkey : key ∈ done.eraseDups
    · rw [if_pos hkey]
      exact ih
    · rw [if_neg hkey]
      exact List.nodup_append.mpr ⟨ih, List.nodup_singleton _, fun a ha b hb => by
        obtain rfl := List.mem_singleton.mp hb
        exact fun h => hkey (h ▸ ha)⟩

/-- Distinct members are all at their first place. -/
theorem eraseDups_of_nodup {l : List κ} (h : l.Nodup) : l.eraseDups = l := by
  induction l using List.reverseRecOn with
  | nil => rfl
  | append_singleton l a ih =>
    obtain ⟨hl, -, hdisjoint⟩ := List.nodup_append.mp h
    have hnew : a ∉ l.eraseDups := fun hmem =>
      hdisjoint a (List.mem_eraseDups.mp hmem) a (List.mem_singleton_self _) rfl
    rw [eraseDups_concat, if_neg hnew, ih hl]

end FirstOccurrences

variable {κ α : Type} [DecidableEq κ]

/-- `map.get(key)`. -/
def get (map : JsMap κ α) (key : κ) : Option α := (map.find? fun entry => entry.1 == key).map (·.2)

/-- `map.set(key, value)`: a key that is there keeps its place. -/
def set (map : JsMap κ α) (key : κ) (value : α) : JsMap κ α :=
  if map.any fun entry => entry.1 == key then
    map.map fun entry => if entry.1 == key then (key, value) else entry
  else map ++ [(key, value)]

/-- `map.keys()`. -/
def keys (map : JsMap κ α) : List κ := map.map (·.1)

/-- `map.values()`. -/
def values (map : JsMap κ α) : List α := map.map (·.2)

@[simp] theorem get_nil (key : κ) : get ([] : JsMap κ α) key = none := rfl

theorem get_cons (entry : κ × α) (rest : JsMap κ α) (key : κ) :
    get (entry :: rest) key = if entry.1 = key then some entry.2 else get rest key := by
  unfold get
  rw [List.find?_cons]
  by_cases h : entry.1 = key
  · simp [h]
  · rw [beq_eq_false_iff_ne.mpr h, if_neg h]

theorem any_key_iff {map : JsMap κ α} {key : κ} :
    (map.any fun entry => entry.1 == key) = true ↔ key ∈ map.keys := by
  unfold keys
  rw [List.any_eq_true, List.mem_map]
  constructor
  · rintro ⟨entry, hmem, heq⟩
    exact ⟨entry, hmem, beq_iff_eq.mp heq⟩
  · rintro ⟨entry, hmem, heq⟩
    exact ⟨entry, hmem, beq_iff_eq.mpr heq⟩

theorem get_eq_none_iff {map : JsMap κ α} {key : κ} : map.get key = none ↔ key ∉ map.keys := by
  unfold get
  rw [Option.map_eq_none_iff, ← any_key_iff, List.find?_eq_none, List.any_eq_true, not_exists]
  exact forall_congr' fun entry => by rw [not_and]

theorem get_append (left right : JsMap κ α) (key : κ) :
    get (left ++ right) key = (left.get key).or (right.get key) := by
  unfold get
  rw [List.find?_append]
  cases List.find? (fun entry : κ × α => entry.1 == key) left <;> simp

/-- Writing a value to the entries of a key. -/
theorem get_overwrite (map : JsMap κ α) (key : κ) (value : α) (other : κ) :
    get (map.map fun entry => if entry.1 == key then (key, value) else entry) other =
      if key = other ∧ key ∈ map.keys then some value else map.get other := by
  induction map with
  | nil => simp [keys]
  | cons entry rest ih =>
    have hmem : key ∈ keys (entry :: rest) ↔ key = entry.1 ∨ key ∈ keys rest := List.mem_cons
    rw [List.map_cons, get_cons, get_cons, ih]
    simp only [hmem]
    by_cases he : entry.1 = key
    · subst he
      by_cases ho : entry.1 = other
      · simp [ho]
      · simp [ho]
    · have hne : ¬ key = entry.1 := fun h => he h.symm
      rw [if_neg (show ¬ (entry.1 == key) = true by simpa using he)]
      by_cases ho : entry.1 = other
      · have hno : ¬ key = other := fun h => hne (h.trans ho.symm)
        simp [ho, hno]
      · simp [ho, hne]

/-- **What setting a key changes**: what this key gets. -/
theorem get_set (map : JsMap κ α) (key : κ) (value : α) (other : κ) :
    (map.set key value).get other = if key = other then some value else map.get other := by
  unfold set
  by_cases hkey : (map.any fun entry => entry.1 == key) = true
  · rw [if_pos hkey, get_overwrite]
    simp [any_key_iff.mp hkey]
  · rw [if_neg hkey, get_append, get_cons, get_nil]
    by_cases ho : key = other
    · subst ho
      rw [if_pos rfl, if_pos rfl, get_eq_none_iff.mpr fun h => hkey (any_key_iff.mpr h)]
      rfl
    · rw [if_neg ho, if_neg ho, Option.or_none]

theorem keys_set (map : JsMap κ α) (key : κ) (value : α) :
    (map.set key value).keys = if key ∈ map.keys then map.keys else map.keys ++ [key] := by
  unfold set
  by_cases hkey : (map.any fun entry => entry.1 == key) = true
  · rw [if_pos hkey, if_pos (any_key_iff.mp hkey)]
    unfold keys
    rw [List.map_map]
    refine List.map_congr_left fun entry _ => ?_
    by_cases he : entry.1 = key
    · simp [he]
    · simp [he]
  · rw [if_neg hkey, if_neg fun h => hkey (any_key_iff.mpr h)]
    unfold keys
    rw [List.map_append]
    rfl

/-- **The keys in their order**: those set so far, each where it was set first. -/
theorem keys_set_eraseDups [BEq κ] [LawfulBEq κ] {map : JsMap κ α} {done : List κ}
    (h : map.keys = done.eraseDups) (key : κ) (value : α) :
    (map.set key value).keys = (done ++ [key]).eraseDups := by
  rw [keys_set, eraseDups_concat, h]
  by_cases hkey : key ∈ done.eraseDups
  · rw [if_pos hkey, if_pos hkey]
  · rw [if_neg hkey, if_neg hkey]

theorem nodup_keys_set {map : JsMap κ α} (h : map.keys.Nodup) (key : κ) (value : α) :
    (map.set key value).keys.Nodup := by
  rw [keys_set]
  by_cases hkey : key ∈ map.keys
  · rw [if_pos hkey]
    exact h
  · rw [if_neg hkey]
    exact List.nodup_append.mpr ⟨h, List.nodup_singleton _, fun a ha b hb => by
      obtain rfl := List.mem_singleton.mp hb
      exact fun hab => hkey (hab ▸ ha)⟩

/-- **The entries of distinct keys** are what the keys get. -/
theorem mem_iff_get {map : JsMap κ α} (h : map.keys.Nodup) {key : κ} {value : α} :
    (key, value) ∈ map ↔ map.get key = some value := by
  induction map with
  | nil => simp
  | cons entry rest ih =>
    obtain ⟨first, held⟩ := entry
    obtain ⟨hnot, hrest⟩ := List.nodup_cons.mp (show (first :: keys rest).Nodup from h)
    rw [List.mem_cons, get_cons, ih hrest]
    by_cases hkey : first = key
    · subst hkey
      rw [if_pos rfl, get_eq_none_iff.mpr hnot]
      simp [eq_comm]
    · have hne : (key, value) ≠ (first, held) := fun h => hkey (congrArg Prod.fst h).symm
      rw [if_neg hkey]
      exact ⟨fun h => h.resolve_left hne, Or.inr⟩

/-- **The values of distinct keys** are what the keys get. -/
theorem values_eq {map : JsMap κ α} (h : map.keys.Nodup) :
    map.values = map.keys.filterMap map.get := by
  induction map with
  | nil => rfl
  | cons entry rest ih =>
    obtain ⟨hnot, hrest⟩ := List.nodup_cons.mp (show (entry.1 :: keys rest).Nodup from h)
    have hhead : get (entry :: rest) entry.1 = some entry.2 := by
      rw [get_cons, if_pos rfl]
    have htail : (keys rest).filterMap (get (entry :: rest)) =
        (keys rest).filterMap (get rest) := by
      refine List.filterMap_congr fun key hkey => ?_
      rw [get_cons, if_neg]
      rintro rfl
      exact hnot hkey
    show entry.2 :: values rest = (entry.1 :: keys rest).filterMap (get (entry :: rest))
    rw [List.filterMap_cons_some hhead, htail, ih hrest]

end JsMap

end OpenVac
