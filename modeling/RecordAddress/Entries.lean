/-! Dictionaries that keep their keys in the order of first insertion. Records, registries and the
declared fields of a schema are all read and written through these operations. Most keys are texts. -/

namespace RecordAddress

abbrev Entries (α : Type) (κ : Type := String) := List (κ × α)

namespace Entries
variable {α κ : Type}

def keys (entries : Entries α κ) : List κ :=
  entries.map Prod.fst

def values (entries : Entries α κ) : List α :=
  entries.map Prod.snd

variable [DecidableEq κ]

def find? (key : κ) : Entries α κ → Option α
  | [] => none
  | (name, value) :: rest => if name = key then some value else find? key rest

def contains (key : κ) (entries : Entries α κ) : Bool :=
  (find? key entries).isSome

/-- A key that is already present keeps its place. -/
def put (key : κ) (value : α) : Entries α κ → Entries α κ
  | [] => [(key, value)]
  | (name, old) :: rest => if name = key then (key, value) :: rest else (name, old) :: put key value rest

def erase (key : κ) (entries : Entries α κ) : Entries α κ :=
  entries.filter fun entry => entry.1 ≠ key

/-- Later pairs replace earlier ones of the same key. -/
def ofList (pairs : List (κ × α)) : Entries α κ :=
  pairs.foldl (fun entries pair => put pair.1 pair.2 entries) []

@[simp] theorem find?_nil (key : κ) : find? key ([] : Entries α κ) = none := rfl

theorem find?_cons (key name : κ) (value : α) (rest : Entries α κ) :
    find? key ((name, value) :: rest) = if name = key then some value else find? key rest := rfl

theorem find?_put (key name : κ) (value : α) (entries : Entries α κ) :
    find? name (put key value entries) = if key = name then some value else find? name entries := by
  induction entries with
  | nil => simp [put, find?]
  | cons entry rest ih =>
    obtain ⟨first, old⟩ := entry
    simp only [put]
    split <;> rename_i same
    · subst same
      simp only [find?]
      split <;> rfl
    · simp only [find?, ih]
      split <;> rename_i found
      · subst found
        simp [Ne.symm same]
      · rfl

theorem find?_erase (key name : κ) (entries : Entries α κ) :
    find? name (erase key entries) = if key = name then none else find? name entries := by
  induction entries with
  | nil => simp [erase]
  | cons entry rest ih =>
    obtain ⟨first, old⟩ := entry
    unfold erase at ih ⊢
    by_cases same : first = key
    · subst same
      rw [List.filter_cons_of_neg (by simp), ih, find?_cons]
      by_cases found : first = name <;> simp [found]
    · rw [List.filter_cons_of_pos (by simpa using same), find?_cons, find?_cons, ih]
      by_cases found : first = name
      · subst found
        simp [Ne.symm same]
      · simp [found]

theorem mem_of_find? {key : κ} {value : α} {entries : Entries α κ} (found : find? key entries = some value) :
    (key, value) ∈ entries := by
  induction entries with
  | nil => simp at found
  | cons entry rest ih =>
    obtain ⟨name, first⟩ := entry
    rw [find?_cons] at found
    split at found
    · next same => simp_all
    · exact List.mem_cons_of_mem _ (ih found)

theorem put_of_find? {key : κ} {value : α} {entries : Entries α κ} (found : find? key entries = some value) :
    put key value entries = entries := by
  induction entries with
  | nil => simp at found
  | cons entry rest ih =>
    obtain ⟨name, first⟩ := entry
    rw [find?_cons] at found
    simp only [put]
    split at found
    · next same => simp_all
    · next other => simp [other, ih found]

theorem eq_or_mem_of_put {key : κ} {value : α} {entries : Entries α κ} {entry : κ × α}
    (within : entry ∈ put key value entries) : entry = (key, value) ∨ entry ∈ entries := by
  induction entries with
  | nil => exact .inl (List.mem_singleton.mp within)
  | cons first rest ih =>
    simp only [put] at within
    split at within
    · exact (List.mem_cons.mp within).imp id (List.mem_cons_of_mem _)
    · rcases List.mem_cons.mp within with rfl | later
      · exact .inr List.mem_cons_self
      · exact (ih later).imp id (List.mem_cons_of_mem _)

/-! Keys are kept by what is done under them, whatever the values. -/

theorem find?_eq_none {key : κ} {entries : Entries α κ} : find? key entries = none ↔ key ∉ entries.keys := by
  induction entries with
  | nil => simp [keys]
  | cons entry rest ih =>
    obtain ⟨name, stored⟩ := entry
    rw [find?_cons]
    by_cases same : name = key
    · simp [same, keys]
    · rw [if_neg same, ih]
      simp [keys, Ne.symm same]

theorem keys_put (key : κ) (value : α) (entries : Entries α κ) :
    (put key value entries).keys = if key ∈ entries.keys then entries.keys else entries.keys ++ [key] := by
  induction entries with
  | nil => rfl
  | cons entry rest ih =>
    obtain ⟨name, stored⟩ := entry
    simp only [put]
    by_cases same : name = key
    · simp [same, keys]
    · rw [if_neg same]
      simp only [keys, List.map_cons] at ih ⊢
      rw [ih]
      by_cases within : key ∈ rest.map Prod.fst <;> simp [within, Ne.symm same]

theorem keys_erase (key : κ) (entries : Entries α κ) :
    (erase key entries).keys = entries.keys.filter (· ≠ key) := by
  rw [erase, keys, keys, List.filter_map]
  rfl

/-- Entries under the same keys have a value under a key both or neither. -/
theorem find?_both {entries others : Entries α κ} (same : entries.keys = others.keys) (key : κ) :
    (find? key entries = none ∧ find? key others = none) ∨
    ∃ value other, find? key entries = some value ∧ find? key others = some other := by
  cases first : find? key entries with
  | none =>
    have absent := find?_eq_none.mp first
    rw [same] at absent
    exact .inl ⟨rfl, find?_eq_none.mpr absent⟩
  | some value =>
    cases second : find? key others with
    | none =>
      have absent := find?_eq_none.mp second
      rw [← same, ← find?_eq_none, first] at absent
      cases absent
    | some other => exact .inr ⟨value, other, rfl, rfl⟩

/-! Keys that differ. -/

theorem find?_of_nodup {key : κ} {value : α} {entries : Entries α κ} (distinct : entries.keys.Nodup)
    (within : (key, value) ∈ entries) : find? key entries = some value := by
  induction entries with
  | nil => cases within
  | cons entry rest ih =>
    obtain ⟨name, first⟩ := entry
    simp only [keys, List.map_cons, List.nodup_cons] at distinct
    rw [find?_cons]
    rcases List.mem_cons.mp within with same | later
    · cases same
      rw [if_pos rfl]
    · have other : name ≠ key := by
        rintro rfl
        exact distinct.1 (List.mem_map_of_mem later)
      rw [if_neg other]
      exact ih distinct.2 later

theorem mem_keys_put {key name : κ} {value : α} {entries : Entries α κ} (within : name ∈ (put key value entries).keys) :
    name = key ∨ name ∈ entries.keys := by
  rw [keys_put] at within
  split at within
  · exact .inr within
  · rcases List.mem_append.mp within with before | added
    · exact .inr before
    · exact .inl (List.mem_singleton.mp added)

theorem put_nodup {key : κ} {value : α} {entries : Entries α κ} (distinct : entries.keys.Nodup) :
    (put key value entries).keys.Nodup := by
  induction entries with
  | nil => simp [put, keys]
  | cons entry rest ih =>
    obtain ⟨name, first⟩ := entry
    simp only [keys, List.map_cons, List.nodup_cons] at distinct
    simp only [put]
    split
    next same =>
      subst same
      exact List.nodup_cons.mpr distinct
    next other =>
      refine List.nodup_cons.mpr ⟨?_, ih distinct.2⟩
      intro within
      rcases mem_keys_put within with same | within
      · exact other same
      · exact distinct.1 within

theorem mem_put {key name : κ} {value stored : α} {entries : Entries α κ} (distinct : entries.keys.Nodup)
    (within : (name, stored) ∈ put key value entries) :
    (name = key ∧ stored = value) ∨ (name ≠ key ∧ (name, stored) ∈ entries) := by
  have found := find?_of_nodup (put_nodup distinct) within
  rw [find?_put] at found
  split at found
  next same => exact .inl ⟨same.symm, (Option.some.inj found).symm⟩
  next other => exact .inr ⟨Ne.symm other, mem_of_find? found⟩

theorem put_of_absent {key : κ} {value : α} {entries : Entries α κ} (absent : key ∉ entries.keys) :
    put key value entries = entries ++ [(key, value)] := by
  induction entries with
  | nil => rfl
  | cons entry rest ih =>
    simp only [keys, List.map_cons, List.mem_cons, not_or] at absent
    rw [put, if_neg (Ne.symm absent.1), ih absent.2, List.cons_append]

theorem put_of_present {key : κ} {value : α} {entries : Entries α κ} (distinct : entries.keys.Nodup)
    (present : key ∈ entries.keys) :
    put key value entries = entries.map fun entry => if entry.1 = key then (entry.1, value) else entry := by
  induction entries with
  | nil => cases present
  | cons entry rest ih =>
    obtain ⟨name, stored⟩ := entry
    simp only [keys, List.map_cons, List.nodup_cons, List.mem_cons] at distinct present
    by_cases same : name = key
    · subst same
      have others : ∀ entry ∈ rest, (if entry.1 = name then (entry.1, value) else entry) = entry := by
        intro entry within
        refine if_neg fun same => distinct.1 ?_
        exact same ▸ List.mem_map_of_mem within
      rw [put, if_pos rfl, List.map_cons, if_pos rfl, List.map_congr_left others, List.map_id']
    · rw [put, if_neg same, List.map_cons, if_neg same, ih distinct.2 (present.resolve_left (Ne.symm same))]

theorem ofList_nodup (pairs : List (κ × α)) : (ofList pairs).keys.Nodup := by
  suffices step : ∀ (entries : Entries α κ), entries.keys.Nodup →
      (pairs.foldl (fun entries pair => put pair.1 pair.2 entries) entries).keys.Nodup from step [] List.nodup_nil
  induction pairs with
  | nil => exact fun _ distinct => distinct
  | cons pair rest ih => exact fun entries distinct => ih (put pair.1 pair.2 entries) (put_nodup distinct)

theorem ofList_snoc (pairs : List (κ × α)) (pair : κ × α) :
    ofList (pairs ++ [pair]) = put pair.1 pair.2 (ofList pairs) := by
  simp [ofList, List.foldl_append]

/-- Of several values under a key the last one stays. -/
theorem find?_ofList (pairs : List (κ × α)) (key : κ) :
    find? key (ofList pairs) = (pairs.reverse.find? fun pair => pair.1 = key).map Prod.snd := by
  suffices step : ∀ (entries : Entries α κ), find? key (pairs.foldl (fun entries pair => put pair.1 pair.2 entries) entries) =
      ((pairs.reverse.find? fun pair => pair.1 = key).map Prod.snd).or (find? key entries) by
    simpa [ofList] using step []
  induction pairs with
  | nil => simp
  | cons pair rest ih =>
    intro entries
    rw [List.foldl_cons, ih, find?_put, List.reverse_cons, List.find?_append]
    cases later : rest.reverse.find? fun pair => pair.1 = key with
    | some found => simp
    | none => by_cases same : pair.1 = key <;> simp [same]

theorem mem_of_ofList {pairs : List (κ × α)} {entry : κ × α} (within : entry ∈ ofList pairs) : entry ∈ pairs := by
  have found := find?_of_nodup (ofList_nodup pairs) within
  rw [find?_ofList] at found
  obtain ⟨pair, last, same⟩ := Option.map_eq_some_iff.mp found
  have key : pair.1 = entry.1 := by simpa using List.find?_some last
  exact Prod.ext key same ▸ List.mem_reverse.mp (List.mem_of_find?_eq_some last)

/-! What is done under different keys can be done in either order. -/

theorem put_put (key : κ) (value later : α) (entries : Entries α κ) :
    put key later (put key value entries) = put key later entries := by
  induction entries with
  | nil => simp [put]
  | cons entry rest ih =>
    obtain ⟨name, stored⟩ := entry
    by_cases same : name = key <;> simp [put, same, ih]

theorem put_comm {key other : κ} (elsewhere : key ≠ other) (value later : α) (entries : Entries α κ) :
    (put other later (put key value entries)).Perm (put key value (put other later entries)) := by
  induction entries with
  | nil => simpa [put, elsewhere, elsewhere.symm] using List.Perm.swap (other, later) (key, value) []
  | cons entry rest ih =>
    obtain ⟨name, stored⟩ := entry
    by_cases first : name = key
    · subst first
      simp [put, elsewhere]
    · by_cases second : name = other
      · subst second
        simp [put, first]
      · simpa [put, first, second] using ih

theorem find?_put_comm {key other : κ} (elsewhere : key ≠ other) {value later : α} {entries : Entries α κ} (name : κ) :
    find? name (put other later (put key value entries)) = find? name (put key value (put other later entries)) := by
  simp only [find?_put]
  split
  next same =>
    subst same
    rw [if_neg elsewhere]
  next => rfl

theorem erase_put {key other : κ} (elsewhere : key ≠ other) (value : α) (entries : Entries α κ) :
    erase other (put key value entries) = put key value (erase other entries) := by
  unfold erase
  induction entries with
  | nil => simp [put, elsewhere]
  | cons entry rest ih =>
    obtain ⟨name, stored⟩ := entry
    by_cases first : name = key
    · subst first
      simp [put, elsewhere]
    · by_cases second : name = other
      · subst second
        simpa [put, first] using ih
      · simpa [put, first, second] using ih

theorem erase_of_find? {key : κ} {entries : Entries α κ} (absent : find? key entries = none) :
    erase key entries = entries := by
  refine List.filter_eq_self.mpr fun entry within => ?_
  have differ : entry.1 ≠ key := fun same => find?_eq_none.mp absent (same ▸ List.mem_map_of_mem within)
  simpa using differ

theorem erase_comm (key other : κ) (entries : Entries α κ) :
    erase other (erase key entries) = erase key (erase other entries) := by
  simp only [erase, List.filter_filter, Bool.and_comm]

end Entries
end RecordAddress
