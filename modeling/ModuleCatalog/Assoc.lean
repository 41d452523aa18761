/-!
# Association lists that remember the order of first use

A key that is written again keeps its place and takes the new value. Objects, manifests and argument
tables are such lists.
-/

namespace ModuleCatalog.Assoc

variable {κ α : Type} [DecidableEq κ]

/-- The value of a key. -/
def get? (key : κ) : List (κ × α) → Option α
  | [] => none
  | (k, a) :: entries => if k = key then some a else get? key entries

/-- Write a value under a key. -/
def put (key : κ) (value : α) : List (κ × α) → List (κ × α)
  | [] => [(key, value)]
  | (k, a) :: entries => if k = key then (k, value) :: entries else (k, a) :: put key value entries

/-- Replace the value of a key, starting from a default when the key is new. -/
def update (key : κ) (change : α → α) (start : α) : List (κ × α) → List (κ × α)
  | [] => [(key, change start)]
  | (k, a) :: entries =>
    if k = key then (k, change a) :: entries else (k, a) :: update key change start entries

/-- The entries written one after the other. -/
def ofEntries (entries : List (κ × α)) : List (κ × α) :=
  entries.foldl (fun table (key, value) => put key value table) []

/-- The keys in order. -/
def keys (entries : List (κ × α)) : List κ := entries.map Prod.fst

theorem get?_put_self (key : κ) (value : α) (entries : List (κ × α)) :
    get? key (put key value entries) = some value := by
  induction entries with
  | nil => simp [put, get?]
  | cons entry entries ih =>
    obtain ⟨k, a⟩ := entry
    by_cases h : k = key <;> simp [put, get?, h, ih]

theorem get?_put_of_ne {key other : κ} (h : other ≠ key) (value : α) (entries : List (κ × α)) :
    get? other (put key value entries) = get? other entries := by
  induction entries with
  | nil => simp [put, get?, Ne.symm h]
  | cons entry entries ih =>
    obtain ⟨k, a⟩ := entry
    by_cases hk : k = key
    · subst hk; simp [put, get?, Ne.symm h]
    · by_cases ho : k = other
      · subst ho; simp [put, get?, h]
      · simp [put, get?, hk, ho, ih]

omit [DecidableEq κ] in
@[simp] theorem keys_cons (key : κ) (value : α) (entries : List (κ × α)) :
    keys ((key, value) :: entries) = key :: keys entries := rfl

/-- The keys after a key has been written: the same ones, or the new one at the end. -/
def keysWith (key : κ) (present : List κ) : List κ :=
  if key ∈ present then present else present ++ [key]

theorem keysWith_cons {key other : κ} (h : other ≠ key) (present : List κ) :
    keysWith key (other :: present) = other :: keysWith key present := by
  by_cases hmem : key ∈ present <;> simp [keysWith, hmem, Ne.symm h]

theorem nodup_keysWith (key : κ) {present : List κ} (h : present.Nodup) :
    (keysWith key present).Nodup := by
  by_cases hmem : key ∈ present
  · simpa [keysWith, hmem] using h
  · rw [keysWith, if_neg hmem, List.nodup_append]
    refine ⟨h, by simp, ?_⟩
    intro a ha b hb hab
    rw [List.mem_singleton.1 hb] at hab
    exact hmem (hab ▸ ha)

theorem keys_put (key : κ) (value : α) (entries : List (κ × α)) :
    keys (put key value entries) = keysWith key (keys entries) := by
  induction entries with
  | nil => simp [put, keys, keysWith]
  | cons entry entries ih =>
    obtain ⟨k, a⟩ := entry
    by_cases hk : k = key
    · simp [put, keysWith, hk]
    · simp [put, hk, ih, keysWith_cons hk]

theorem keys_update (key : κ) (change : α → α) (start : α) (entries : List (κ × α)) :
    keys (update key change start entries) = keysWith key (keys entries) := by
  induction entries with
  | nil => simp [update, keys, keysWith]
  | cons entry entries ih =>
    obtain ⟨k, a⟩ := entry
    by_cases hk : k = key
    · simp [update, keysWith, hk]
    · simp [update, hk, ih, keysWith_cons hk]

theorem nodup_keys_put (key : κ) (value : α) {entries : List (κ × α)} (h : (keys entries).Nodup) :
    (keys (put key value entries)).Nodup := by
  rw [keys_put]
  exact nodup_keysWith key h

theorem nodup_keys_update (key : κ) (change : α → α) (start : α) {entries : List (κ × α)}
    (h : (keys entries).Nodup) : (keys (update key change start entries)).Nodup := by
  rw [keys_update]
  exact nodup_keysWith key h

theorem nodup_keys_ofEntries (entries : List (κ × α)) : (keys (ofEntries entries)).Nodup := by
  suffices ∀ table : List (κ × α), (keys table).Nodup →
      (keys (entries.foldl (fun table (key, value) => put key value table) table)).Nodup from
    this [] List.nodup_nil
  induction entries with
  | nil => exact fun _ h => h
  | cons entry entries ih => exact fun table h => ih _ (nodup_keys_put _ _ h)

theorem get?_append (key : κ) (entries others : List (κ × α)) :
    get? key (entries ++ others) = (get? key entries).or (get? key others) := by
  induction entries with
  | nil => rfl
  | cons entry entries ih =>
    obtain ⟨k, a⟩ := entry
    by_cases hk : k = key <;> simp [get?, hk, ih]

/-- When a key is written several times, its last value counts. -/
theorem get?_ofEntries (key : κ) (entries : List (κ × α)) :
    get? key (ofEntries entries) = get? key entries.reverse := by
  suffices ∀ table : List (κ × α),
      get? key (entries.foldl (fun table (key, value) => put key value table) table) =
        (get? key entries.reverse).or (get? key table) by
    have h := this []
    rwa [get?, Option.or_none] at h
  induction entries with
  | nil => exact fun _ => rfl
  | cons entry entries ih =>
    intro table
    obtain ⟨k, a⟩ := entry
    rw [List.foldl_cons, ih, List.reverse_cons, get?_append, Option.or_assoc]
    by_cases hk : k = key
    · subst hk
      rw [get?_put_self, get?, if_pos rfl, Option.some_or]
    · rw [get?_put_of_ne (Ne.symm hk), get?, if_neg hk, get?, Option.none_or]

omit [DecidableEq κ] in
theorem keys_append (entries others : List (κ × α)) :
    keys (entries ++ others) = keys entries ++ keys others := List.map_append

theorem put_of_not_mem {key : κ} (value : α) {entries : List (κ × α)} (h : key ∉ keys entries) :
    put key value entries = entries ++ [(key, value)] := by
  induction entries with
  | nil => rfl
  | cons entry entries ih =>
    obtain ⟨k, a⟩ := entry
    rw [keys_cons, List.mem_cons, not_or] at h
    rw [put, if_neg (Ne.symm h.1), ih h.2, List.cons_append]

/-- Entries whose keys differ are kept as they are. -/
theorem ofEntries_of_nodup {entries : List (κ × α)} (h : (keys entries).Nodup) :
    ofEntries entries = entries := by
  suffices ∀ table : List (κ × α), (keys (table ++ entries)).Nodup →
      entries.foldl (fun table (key, value) => put key value table) table = table ++ entries from
    this [] h
  clear h
  induction entries with
  | nil => simp
  | cons entry entries ih =>
    intro table h
    obtain ⟨key, value⟩ := entry
    have hkey : key ∉ keys table := by
      rw [keys_append, keys_cons, List.nodup_append] at h
      exact fun hmem => h.2.2 key hmem key List.mem_cons_self rfl
    have hsplit : table ++ (key, value) :: entries = table ++ [(key, value)] ++ entries := by simp
    simp only [List.foldl_cons]
    rw [put_of_not_mem value hkey, hsplit]
    exact ih _ (hsplit ▸ h)

/-! ## Keys that are there -/

theorem get?_eq_none_iff {key : κ} {entries : List (κ × α)} : get? key entries = none ↔ key ∉ keys entries := by
  induction entries with
  | nil => simp [get?, keys]
  | cons entry entries ih =>
    obtain ⟨k, a⟩ := entry
    by_cases hk : k = key
    · simp [get?, hk]
    · simp [get?, hk, ih, Ne.symm hk]

theorem get?_eq_some_iff {entries : List (κ × α)} (h : (keys entries).Nodup) {key : κ} {a : α} :
    get? key entries = some a ↔ (key, a) ∈ entries := by
  induction entries with
  | nil => simp [get?]
  | cons entry entries ih =>
    obtain ⟨k, value⟩ := entry
    rw [keys_cons, List.nodup_cons] at h
    by_cases hk : k = key
    · subst hk
      have hother : (k, a) ∉ entries := fun hmem => h.1 (List.mem_map_of_mem hmem)
      simp [get?, hother, eq_comm]
    · rw [get?, if_neg hk, ih h.2, List.mem_cons]
      simp [Ne.symm hk]

/-- Entries whose keys differ may be written in any order. -/
theorem get?_ofEntries_of_perm {entries entries' : List (κ × α)} (hnodup : (keys entries).Nodup)
    (h : entries'.Perm entries) (key : κ) : get? key (ofEntries entries') = get? key entries := by
  have hnodup' : (keys entries').Nodup := (h.map Prod.fst).nodup_iff.2 hnodup
  apply Option.ext
  intro value
  rw [ofEntries_of_nodup hnodup', get?_eq_some_iff hnodup', get?_eq_some_iff hnodup, h.mem_iff]

theorem map_get? {β : Type} (f : α → β) (key : κ) (entries : List (κ × α)) :
    (get? key entries).map f = get? key ((keys entries).zip (entries.map fun entry => f entry.2)) := by
  induction entries with
  | nil => rfl
  | cons entry entries ih =>
    rw [keys_cons, List.map_cons, List.zip_cons_cons, get?, get?]
    split
    · rfl
    · exact ih

end ModuleCatalog.Assoc
