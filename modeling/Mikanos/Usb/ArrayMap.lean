import Mathlib.Data.List.Perm.Basic
import Mathlib.Tactic

/-!
# A map in a fixed array

`ArrayMap<K, V, N>` keeps `N` pairs of an optional key and a value.  `Put` takes
the first slot without a key and silently does nothing when there is none; it
does not look for an older entry of the same key.  `Delete` clears the key of
the first entry it finds and keeps the value.

The loops of the three operations count with an `int`.  Here they are recursions over the
table, which is the same as long as the table has fewer than `2 ^ 31` slots; what the code does
with a larger one is not modelled.  The driver's tables have 4 and 16.

The abstract view is the list of entries in use.  `get_eq_some_iff`,
`entries_put` and `entries_delete` say that the three operations are lookup,
insertion and removal on it, as long as keys are distinct and a slot is free.
-/

namespace Mikanos.Usb

/-- `class ArrayMap<K, V, N>`. -/
structure ArrayMap (K V : Type) (N : Nat) where
  table : List (Option K × V)
  size : table.length = N

namespace ArrayMap

variable {K V : Type} {N : Nat}

/-- The loop of `Get`. -/
def getIn [DecidableEq K] (key : K) : List (Option K × V) → Option V
  | [] => none
  | (k, v) :: rest => if k = some key then some v else getIn key rest

/-- The loop of `Put`. -/
def putIn (key : K) (value : V) : List (Option K × V) → List (Option K × V)
  | [] => []
  | (none, _) :: rest => (some key, value) :: rest
  | (some k, v) :: rest => (some k, v) :: putIn key value rest

/-- The loop of `Delete`. -/
def deleteIn [DecidableEq K] (key : K) : List (Option K × V) → List (Option K × V)
  | [] => []
  | (k, v) :: rest => if k = some key then (none, v) :: rest else (k, v) :: deleteIn key rest

theorem length_putIn (key : K) (value : V) (table : List (Option K × V)) :
    (putIn key value table).length = table.length := by
  induction table with
  | nil => rfl
  | cons e rest ih =>
      obtain ⟨_ | k, v⟩ := e
      · rfl
      · exact congrArg (· + 1) ih

/-- `Delete` empties a slot and takes none away, so the table is as long as before. -/
theorem length_deleteIn [DecidableEq K] (key : K) (table : List (Option K × V)) :
    (deleteIn key table).length = table.length := by
  induction table with
  | nil => rfl
  | cons e rest ih =>
      obtain ⟨k, v⟩ := e
      rw [deleteIn]
      split
      · rfl
      · exact congrArg (· + 1) ih

/-- A map of value-initialized slots (`table_{}`). -/
def empty (zero : V) : ArrayMap K V N := ⟨List.replicate N (none, zero), List.length_replicate⟩

/-- `ArrayMap::Get(key)`. -/
def get [DecidableEq K] (m : ArrayMap K V N) (key : K) : Option V := getIn key m.table

/-- `ArrayMap::Put(key, value)`. -/
def put (m : ArrayMap K V N) (key : K) (value : V) : ArrayMap K V N :=
  ⟨putIn key value m.table, (length_putIn key value m.table).trans m.size⟩

/-- `ArrayMap::Delete(key)`. -/
def delete [DecidableEq K] (m : ArrayMap K V N) (key : K) : ArrayMap K V N :=
  ⟨deleteIn key m.table, (length_deleteIn key m.table).trans m.size⟩

/-! ## The entries in use -/

/-- The entries of a table, in slot order. -/
def entriesIn (table : List (Option K × V)) : List (K × V) :=
  table.filterMap fun e => e.1.map (·, e.2)

/-- The entries in use. -/
def entries (m : ArrayMap K V N) : List (K × V) := entriesIn m.table

@[simp] theorem entriesIn_none (v : V) (rest : List (Option K × V)) :
    entriesIn ((none, v) :: rest) = entriesIn rest := rfl

@[simp] theorem entriesIn_some (k : K) (v : V) (rest : List (Option K × V)) :
    entriesIn ((some k, v) :: rest) = (k, v) :: entriesIn rest := rfl

@[simp] theorem entries_empty (zero : V) : (empty zero : ArrayMap K V N).entries = [] := by
  simp [entries, empty, entriesIn]

/-- `Put` adds at most the new entry: whatever is in the map afterwards was in it before, or is
the entry that was put. -/
theorem mem_entries_put {m : ArrayMap K V N} {key : K} {value : V} {e : K × V}
    (h : e ∈ (m.put key value).entries) : e ∈ m.entries ∨ e = (key, value) := by
  obtain ⟨table, size⟩ := m
  change e ∈ entriesIn (putIn key value table) at h
  change e ∈ entriesIn table ∨ _
  clear size
  induction table with
  | nil => exact Or.inl h
  | cons slot rest ih =>
      obtain ⟨_ | k, v⟩ := slot
      · rcases List.mem_cons.mp h with rfl | hrest
        · exact Or.inr rfl
        · exact Or.inl hrest
      · rcases List.mem_cons.mp h with rfl | hrest
        · exact Or.inl List.mem_cons_self
        · exact (ih hrest).imp (List.mem_cons_of_mem _) id

/-- `Get` finds the first entry of the key in the order of the slots, and nothing if no slot
holds the key. -/
theorem get_eq_find [DecidableEq K] (m : ArrayMap K V N) (key : K) :
    m.get key = (m.entries.find? fun e => e.1 = key).map Prod.snd := by
  obtain ⟨table, size⟩ := m
  show getIn key table = ((entriesIn table).find? fun e => e.1 = key).map Prod.snd
  clear size
  induction table with
  | nil => rfl
  | cons e rest ih =>
      obtain ⟨_ | k, v⟩ := e
      · rw [getIn, if_neg (by simp), entriesIn_none, ih]
      · by_cases hk : k = key
        · simp [getIn, hk]
        · simp [getIn, hk, ih]

/-- What `Get` finds is an entry. -/
theorem mem_entries_of_get [DecidableEq K] {m : ArrayMap K V N} {key : K} {value : V}
    (h : m.get key = some value) : (key, value) ∈ m.entries := by
  rw [get_eq_find] at h
  obtain ⟨e, he, hvalue⟩ := Option.map_eq_some_iff.mp h
  have hkey : e.1 = key := by simpa using List.find?_some he
  rw [← hkey, ← hvalue]
  exact List.mem_of_find?_eq_some he

/-- **`Get` is lookup**, when no key is stored twice: it finds a value exactly if some slot
holds it under the key. -/
theorem get_eq_some_iff [DecidableEq K] {m : ArrayMap K V N}
    (hkeys : (m.entries.map Prod.fst).Nodup)
    {key : K} {value : V} : m.get key = some value ↔ (key, value) ∈ m.entries := by
  constructor
  · exact mem_entries_of_get
  · intro h
    rw [get_eq_find]
    obtain ⟨e, he⟩ : ∃ e, m.entries.find? (fun e => e.1 = key) = some e := by
      rw [← Option.isSome_iff_exists, List.find?_isSome]
      exact ⟨(key, value), h, by simp⟩
    have hkey : e.1 = key := by simpa using List.find?_some he
    have heq : e = (key, value) :=
      List.inj_on_of_nodup_map hkeys (List.mem_of_find?_eq_some he) h hkey
    rw [he, heq]
    rfl

/-- **`Put` is insertion**, while a slot is free: the entries afterwards are those of before and
the new one, up to their order in the slots. -/
theorem entries_put (m : ArrayMap K V N) (key : K) (value : V) (hroom : m.entries.length < N) :
    (m.put key value).entries.Perm ((key, value) :: m.entries) := by
  obtain ⟨table, rfl⟩ := m
  change (entriesIn (putIn key value table)).Perm ((key, value) :: entriesIn table)
  change (entriesIn table).length < table.length at hroom
  induction table with
  | nil => exact absurd hroom (Nat.lt_irrefl 0)
  | cons e rest ih =>
      obtain ⟨_ | k, v⟩ := e
      · exact List.Perm.refl _
      · rw [entriesIn_some, List.length_cons, List.length_cons] at hroom
        rw [putIn, entriesIn_some, entriesIn_some]
        exact ((ih (by omega)).cons (k, v)).trans (List.Perm.swap _ _ _)

/-- **`Delete` is removal** of the first entry of the key; a second entry of the same key would
stay. -/
theorem entries_delete [DecidableEq K] (m : ArrayMap K V N) (key : K) :
    (m.delete key).entries = m.entries.eraseP fun e => e.1 = key := by
  obtain ⟨table, size⟩ := m
  show entriesIn (deleteIn key table) = (entriesIn table).eraseP fun e => e.1 = key
  clear size
  induction table with
  | nil => rfl
  | cons e rest ih =>
      obtain ⟨_ | k, v⟩ := e
      · rw [deleteIn, if_neg (by simp), entriesIn_none, entriesIn_none, ih]
      · by_cases hk : k = key
        · simp [deleteIn, hk]
        · simp [deleteIn, hk, ih]

/-- `Delete` removes at most one entry. -/
theorem length_entries_delete [DecidableEq K] (m : ArrayMap K V N) (key : K) :
    m.entries.length ≤ (m.delete key).entries.length + 1 := by
  rw [entries_delete, List.length_eraseP]
  split <;> omega

/-- A map holds at most as many entries as it has slots. -/
theorem length_entries_le (m : ArrayMap K V N) : m.entries.length ≤ N := by
  have hle : m.entries.length ≤ m.table.length := List.length_filterMap_le _ _
  exact hle.trans (Nat.le_of_eq m.size)

/-- **`Put` into a full map** changes nothing: the loop finds no free slot and ends, and nobody
is told. -/
theorem entries_put_full (m : ArrayMap K V N) (key : K) (value : V)
    (hfull : m.entries.length = N) : (m.put key value).entries = m.entries := by
  obtain ⟨table, rfl⟩ := m
  change entriesIn (putIn key value table) = entriesIn table
  change (entriesIn table).length = table.length at hfull
  induction table with
  | nil => rfl
  | cons slot rest ih =>
      obtain ⟨_ | k, v⟩ := slot
      · -- A free slot cannot be: the rest holds no more entries than it has slots.
        have hle : (entriesIn rest).length ≤ rest.length := List.length_filterMap_le _ _
        rw [entriesIn_none, List.length_cons] at hfull
        omega
      · rw [entriesIn_some, List.length_cons, List.length_cons] at hfull
        rw [putIn, entriesIn_some, entriesIn_some, ih (by omega)]

/-- **`Put` leaves a map alone** if and only if it is full, for with a free slot the map has one
entry more afterwards. -/
theorem put_eq_self_iff {m : ArrayMap K V N} {key : K} {value : V} :
    m.put key value = m ↔ m.entries.length = N := by
  obtain ⟨table, rfl⟩ := m
  change ArrayMap.mk (putIn key value table) _ = ArrayMap.mk table _ ↔
    (entriesIn table).length = table.length
  rw [ArrayMap.mk.injEq]
  induction table with
  | nil => exact ⟨fun _ => rfl, fun _ => rfl⟩
  | cons slot rest ih =>
      obtain ⟨_ | k, v⟩ := slot
      · have hle : (entriesIn rest).length ≤ rest.length := List.length_filterMap_le _ _
        rw [putIn, entriesIn_none, List.length_cons]
        constructor
        · intro heq
          cases heq
        · intro hfull
          omega
      · rw [putIn, entriesIn_some, List.length_cons, List.length_cons, List.cons_inj_right,
          Nat.succ_inj]
        exact ih

/-! ## A key put and looked up -/

/-- The slots of the map that are free or hold the key have a first one, and
this one is free or holds the value. -/
def Accepts [DecidableEq K] (m : ArrayMap K V N) (key : K) (value : V) : Prop :=
  ∃ e, m.table.find? (fun e => e.1 = none ∨ e.1 = some key) = some e ∧
    (e.1 = none ∨ e.2 = value)

/-- **What `Put` makes `Get` find**: the value just put, exactly if the first slot that is free
or holds the key is free or holds that value already. -/
theorem get_put_self_iff [DecidableEq K] {m : ArrayMap K V N} {key : K} {value : V} :
    (m.put key value).get key = some value ↔ m.Accepts key value := by
  obtain ⟨table, size⟩ := m
  change getIn key (putIn key value table) = some value ↔
    ∃ e, table.find? (fun e => e.1 = none ∨ e.1 = some key) = some e ∧ (e.1 = none ∨ e.2 = value)
  clear size
  induction table with
  | nil => simp [putIn, getIn]
  | cons slot rest ih =>
      obtain ⟨_ | k, v⟩ := slot
      · simp [putIn, getIn]
      · by_cases hk : k = key
        · subst hk
          simp [putIn, getIn]
        · rw [putIn, getIn, if_neg (by simpa using hk), ih,
            List.find?_cons_of_neg (by simpa using hk)]

/-- `Put` does not affect the other keys: for each of them `Get` finds what it found before, in
a full map as well. -/
theorem get_put_of_ne [DecidableEq K] (m : ArrayMap K V N) {key key' : K} (h : key' ≠ key)
    (value : V) : (m.put key value).get key' = m.get key' := by
  obtain ⟨table, size⟩ := m
  change getIn key' (putIn key value table) = getIn key' table
  clear size
  induction table with
  | nil => rfl
  | cons slot rest ih =>
      obtain ⟨_ | k, v⟩ := slot
      · rw [putIn, getIn, getIn, if_neg (by simpa using Ne.symm h), if_neg (by simp)]
      · rw [putIn, getIn, getIn, ih]

/-- Erasing the first element with the key of `a` erases `a`, if no two elements share their
key. -/
theorem eraseP_key {α κ : Type} [DecidableEq α] [DecidableEq κ] (key : α → κ) (a : α)
    (l : List α) (ha : a ∈ l) (hkeys : (l.map key).Nodup) :
    (l.eraseP fun x => key x = key a) = l.erase a := by
  induction l with
  | nil => cases ha
  | cons x rest ih =>
      obtain ⟨hx, hrest⟩ := List.nodup_cons.mp hkeys
      by_cases heq : x = a
      · simp [heq]
      · have hmem : a ∈ rest := (List.mem_cons.mp ha).resolve_left (Ne.symm heq)
        have hkey : key x ≠ key a := fun hk => hx (hk ▸ List.mem_map_of_mem hmem)
        rw [List.eraseP_cons_of_neg (by simpa using hkey),
          List.erase_cons_tail (by simpa using heq),
          ih hmem hrest]

/-- `Delete` on a map whose entries stand for the elements of a list, with different keys, takes
out the entry of the one element. -/
theorem entries_delete_of_perm [DecidableEq K] {α : Type} [DecidableEq α] {m : ArrayMap K V N}
    {l : List α} {entry : α → K × V} (hentries : m.entries.Perm (l.map entry))
    (hkeys : (l.map fun x => (entry x).1).Nodup) {a : α} (ha : a ∈ l) :
    (m.delete (entry a).1).entries.Perm ((l.erase a).map entry) := by
  have hdistinct : m.entries.Pairwise fun e e' =>
      decide (e.1 = (entry a).1) = true → decide (e'.1 = (entry a).1) = true → False := by
    have hnodup : (m.entries.map Prod.fst).Nodup := by
      rw [(hentries.map Prod.fst).nodup_iff, List.map_map]
      exact hkeys
    refine (List.pairwise_map.mp hnodup).imp fun {e e'} hne h h' => hne ?_
    rw [of_decide_eq_true h, of_decide_eq_true h']
  rw [entries_delete, ← eraseP_key (fun x => (entry x).1) a l ha hkeys]
  refine (hentries.eraseP _ hdistinct).trans ?_
  rw [List.eraseP_map]
  exact List.Perm.refl _

end ArrayMap

end Mikanos.Usb
