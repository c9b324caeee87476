/-!
# Tables

A table holds values under text keys, each key once, in the order in which the
keys arrived. Replacing a value keeps its place. Every operation is described by
what it does to `keys` and to `get?`.
-/
namespace BlockProgram

structure Table (α : Type) where
  entries : List (String × α) := []
  nodup : (entries.map Prod.fst).Nodup := by exact List.nodup_nil

namespace Table

variable {α β : Type}

instance : Inhabited (Table α) := ⟨{}⟩

def empty : Table α := {}

def keys (t : Table α) : List String := t.entries.map Prod.fst

def values (t : Table α) : List α := t.entries.map Prod.snd

def size (t : Table α) : Nat := t.entries.length

def isEmpty (t : Table α) : Bool := t.entries.isEmpty

def get? (t : Table α) (key : String) : Option α := t.entries.lookup key

def contains (t : Table α) (key : String) : Bool := (t.get? key).isSome

@[simp] theorem keys_empty : (empty : Table α).keys = [] := rfl

@[simp] theorem get?_empty (key : String) : (empty : Table α).get? key = none := rfl

theorem nodup_keys (t : Table α) : t.keys.Nodup := t.nodup

@[simp] theorem length_keys (t : Table α) : t.keys.length = t.size := by simp [keys, size]

@[ext] theorem ext_entries {s t : Table α} (h : s.entries = t.entries) : s = t := by
  cases s; cases t; cases h; rfl

theorem lookup_isSome_iff (entries : List (String × α)) (key : String) :
    (entries.lookup key).isSome = true ↔ key ∈ entries.map Prod.fst := by
  induction entries with
  | nil => simp
  | cons e rest ih =>
    obtain ⟨k, v⟩ := e
    by_cases h : key = k
    · simp [h]
    · have hb : (key == k) = false := by simpa using h
      simp only [List.lookup_cons, hb, List.map_cons, List.mem_cons, h, false_or]
      exact ih

theorem mem_keys_iff (t : Table α) (key : String) : key ∈ t.keys ↔ (t.get? key).isSome = true :=
  (lookup_isSome_iff t.entries key).symm

@[simp] theorem contains_eq_true_iff (t : Table α) (key : String) :
    t.contains key = true ↔ key ∈ t.keys := (t.mem_keys_iff key).symm

theorem get?_eq_none_iff (t : Table α) (key : String) : t.get? key = none ↔ key ∉ t.keys := by
  rw [mem_keys_iff]
  cases t.get? key <;> simp

/-! ### Insertion -/

/-- The entry put in place of the one with its key, or at the end. -/
def insertEntry (key : String) (value : α) : List (String × α) → List (String × α)
  | [] => [(key, value)]
  | (k, v) :: rest =>
    if k = key then (key, value) :: rest else (k, v) :: insertEntry key value rest

theorem keys_insertEntry (key : String) (value : α) (entries : List (String × α)) :
    (insertEntry key value entries).map Prod.fst =
      if key ∈ entries.map Prod.fst then entries.map Prod.fst
      else entries.map Prod.fst ++ [key] := by
  induction entries with
  | nil => simp [insertEntry]
  | cons e rest ih =>
    obtain ⟨k, v⟩ := e
    by_cases h : k = key
    · simp [insertEntry, h]
    · simp only [insertEntry, h, if_false, List.map_cons, ih, List.mem_cons, Ne.symm h, false_or]
      split <;> simp

theorem lookup_insertEntry (key k : String) (value : α) (entries : List (String × α)) :
    (insertEntry key value entries).lookup k =
      if k = key then some value else entries.lookup k := by
  induction entries with
  | nil =>
    by_cases h : k = key
    · simp [insertEntry, h]
    · have hb : (k == key) = false := by simpa using h
      simp [insertEntry, List.lookup_cons, hb, h]
  | cons e rest ih =>
    obtain ⟨k', v⟩ := e
    by_cases h : k' = key
    · subst h
      by_cases hk : k = k'
      · simp [insertEntry, hk]
      · have hb : (k == k') = false := by simpa using hk
        simp [insertEntry, List.lookup_cons, hb, hk]
    · by_cases hk : k = k'
      · subst hk
        simp [insertEntry, h]
      · have hb : (k == k') = false := by simpa using hk
        simp [insertEntry, h, List.lookup_cons, hb, ih]

def insert (t : Table α) (key : String) (value : α) : Table α where
  entries := insertEntry key value t.entries
  nodup := by
    rw [keys_insertEntry]
    split
    · exact t.nodup
    · next h =>
      refine List.nodup_append.mpr ⟨t.nodup, by simp, ?_⟩
      intro a ha b hb
      rw [List.mem_singleton] at hb
      subst hb
      exact fun hab => h (hab ▸ ha)

@[simp] theorem keys_insert (t : Table α) (key : String) (value : α) :
    (t.insert key value).keys = if key ∈ t.keys then t.keys else t.keys ++ [key] :=
  keys_insertEntry key value t.entries

@[simp] theorem get?_insert (t : Table α) (key k : String) (value : α) :
    (t.insert key value).get? k = if k = key then some value else t.get? k :=
  lookup_insertEntry key k value t.entries

/-! ### Removal -/

theorem lookup_filter_fst (p : String → Bool) (key : String) (entries : List (String × α)) :
    (entries.filter fun e => p e.1).lookup key = if p key then entries.lookup key else none := by
  induction entries with
  | nil => simp
  | cons e rest ih =>
    obtain ⟨k, v⟩ := e
    by_cases hk : key = k
    · subst hk
      by_cases hp : p key = true
      · simp [hp]
      · simp [hp, ih]
    · have hb : (key == k) = false := by simpa using hk
      by_cases hp : p k = true
      · simp [hp, List.lookup_cons, hb, ih]
      · simp [hp, List.lookup_cons, hb, ih]

theorem nodup_filter (t : Table α) (p : String × α → Bool) :
    ((t.entries.filter p).map Prod.fst).Nodup :=
  t.nodup.sublist (List.filter_sublist.map Prod.fst)

def erase (t : Table α) (key : String) : Table α where
  entries := t.entries.filter fun e => e.1 != key
  nodup := t.nodup_filter _

@[simp] theorem keys_erase (t : Table α) (key : String) :
    (t.erase key).keys = t.keys.filter (· != key) := by
  simp only [keys, erase, List.filter_map]
  rfl

@[simp] theorem get?_erase (t : Table α) (key k : String) :
    (t.erase key).get? k = if k = key then none else t.get? k := by
  show (t.entries.filter fun e => e.1 != key).lookup k = _
  rw [lookup_filter_fst (· != key)]
  by_cases h : k = key <;> simp [h, get?]

theorem size_erase_lt {t : Table α} {key : String} {value : α} (h : t.get? key = some value) :
    (t.erase key).size < t.size := by
  have hmem : key ∈ t.keys := (t.mem_keys_iff key).mpr (by simp [h])
  obtain ⟨e, he, hk⟩ := List.mem_map.mp hmem
  show (t.entries.filter fun e => e.1 != key).length < t.entries.length
  refine Nat.lt_of_le_of_ne (List.length_filter_le _ _) fun heq => ?_
  have := List.length_filter_eq_length_iff.mp heq e he
  simp [hk] at this

/-- Only the entries whose value satisfies `p`. -/
def filterValues (t : Table α) (p : α → Bool) : Table α where
  entries := t.entries.filter fun e => p e.2
  nodup := t.nodup_filter _

/-! ### Change in place -/

def modifyEntry (key : String) (f : α → α) (e : String × α) : String × α :=
  if e.1 = key then (e.1, f e.2) else e

@[simp] theorem modifyEntry_fst (key : String) (f : α → α) (e : String × α) :
    (modifyEntry key f e).1 = e.1 := by
  unfold modifyEntry
  split <;> rfl

/-- Applies `f` to the value at `key`, if there is one. -/
def modify (t : Table α) (key : String) (f : α → α) : Table α where
  entries := t.entries.map (modifyEntry key f)
  nodup := by
    rw [List.map_map]
    have : (Prod.fst ∘ modifyEntry key f) = (Prod.fst : String × α → String) := by
      funext e
      simp
    rw [this]
    exact t.nodup

@[simp] theorem keys_modify (t : Table α) (key : String) (f : α → α) :
    (t.modify key f).keys = t.keys := by
  simp only [keys, modify, List.map_map]
  congr 1
  funext e
  simp

theorem lookup_map_modifyEntry (key k : String) (f : α → α) (entries : List (String × α)) :
    (entries.map (modifyEntry key f)).lookup k =
      if k = key then (entries.lookup k).map f else entries.lookup k := by
  induction entries with
  | nil => simp
  | cons e rest ih =>
    obtain ⟨k', v⟩ := e
    by_cases hk : k = k'
    · subst hk
      by_cases h : k = key
      · simp [modifyEntry, h]
      · simp [modifyEntry, h]
    · have hb : (k == k') = false := by simpa using hk
      by_cases h' : k' = key
      · subst h'
        simp [modifyEntry, List.lookup_cons, hb, hk, ih]
      · simp [modifyEntry, h', List.lookup_cons, hb, ih]

@[simp] theorem get?_modify (t : Table α) (key k : String) (f : α → α) :
    (t.modify key f).get? k = if k = key then (t.get? k).map f else t.get? k :=
  lookup_map_modifyEntry key k f t.entries

/-- A table with the given entries; of those with one key the last counts. -/
def ofList (entries : List (String × α)) : Table α :=
  entries.foldl (fun t e => t.insert e.1 e.2) empty

end Table

end BlockProgram
