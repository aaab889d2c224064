import UnitPropagation.Fault

namespace UnitPropagation

/-!
# Tables

A table is a sequence of rows which are reached by their numbers only.  A new row
goes to the end, and its number is the number of the rows before it.  Reading and
writing a row that is not there is a fault.
-/

/-- A sequence of rows with the keys `0`, `1`, `2` and so on.  Rows can be exchanged and added, but
none is ever taken away. -/
structure Table (α : Type) where
  rows : Array α
deriving DecidableEq

namespace Table

variable {α : Type}

def empty : Table α :=
  ⟨#[]⟩

def size (table : Table α) : Nat :=
  table.rows.size

def isEmpty (table : Table α) : Bool :=
  table.rows.isEmpty

def toList (table : Table α) : List α :=
  table.rows.toList

def nextKey (table : Table α) : Nat :=
  table.size

def keys (table : Table α) : List Nat :=
  List.range table.size

/-- The rows with their keys, in ascending order of the keys. -/
def entries (table : Table α) : List (Nat × α) :=
  table.toList.zipIdx.map fun (row, key) => (key, row)

def get (table : Table α) (key : Nat) : Except Fault α :=
  match table.rows[key]? with
  | some row => .ok row
  | none => .error (.outOfRange table.size key)

/-- The table with one row exchanged.  A table without a row of this key stays as it is. -/
def put (table : Table α) (key : Nat) (row : α) : Table α :=
  ⟨table.rows.setIfInBounds key row⟩

/-- Exchanges a row as `put` does, but only if the table has it; otherwise this is a fault. -/
def set (table : Table α) (key : Nat) (row : α) : Except Fault (Table α) :=
  if key < table.size then .ok (table.put key row) else .error (.outOfRange table.size key)

/-- The table with one more row, whose key is the table's `nextKey`. -/
def push (table : Table α) (row : α) : Table α :=
  ⟨table.rows.push row⟩

@[simp]
theorem size_push (table : Table α) (row : α) : (table.push row).size = table.size + 1 := by
  simp [push, size]

@[simp]
theorem toList_push (table : Table α) (row : α) :
    (table.push row).toList = table.toList ++ [row] := by
  simp [push, toList]

theorem mem_entries {table : Table α} {key : Nat} {row : α} :
    (key, row) ∈ table.entries ↔ table.rows[key]? = some row := by
  simp only [entries, toList, List.mem_map, Prod.exists, Prod.mk.injEq,
    List.mem_zipIdx_iff_getElem?, Array.getElem?_toList]
  constructor
  · rintro ⟨found, place, read, rfl, rfl⟩
    exact read
  · intro read
    exact ⟨row, key, read, rfl, rfl⟩

theorem get_eq_ok_iff {table : Table α} {key : Nat} {row : α} :
    table.get key = .ok row ↔ table.rows[key]? = some row := by
  unfold get
  split <;> simp_all

/-- Reading a row fails exactly behind the last one. -/
theorem get_eq_error_iff {table : Table α} {key : Nat} {fault : Fault} :
    table.get key = .error fault ↔
      table.size ≤ key ∧ fault = .outOfRange table.size key := by
  unfold get size
  split
  · rename_i row found
    have := (Array.getElem?_eq_some_iff.mp found).1
    constructor
    · intro read
      cases read
    · intro behind
      omega
  · rename_i missing
    rw [Array.getElem?_eq_none_iff] at missing
    simp [missing, eq_comm]

theorem exists_get_of_lt {table : Table α} {key : Nat} (inside : key < table.size) :
    ∃ row, table.get key = .ok row := by
  cases read : table.get key with
  | ok row => exact ⟨row, rfl⟩
  | error fault =>
    have behind := (get_eq_error_iff.mp read).1
    omega

@[simp]
theorem size_put (table : Table α) (key : Nat) (row : α) : (table.put key row).size = table.size := by
  simp [put, size]

/-- Exchanging a row changes what is read there and nowhere else. -/
theorem get_put {table : Table α} {key : Nat} (inside : key < table.size) (row : α) (other : Nat) :
    (table.put key row).get other = if other = key then .ok row else table.get other := by
  simp only [get, size, put] at *
  by_cases same : other = key
  · subst same
    simp [inside]
  · simp [Ne.symm same, same]

/-- Exchanging a row takes one occurrence of the old row and adds one of the new row. -/
theorem count_put [DecidableEq α] {table : Table α} {key : Nat} {old : α}
    (found : table.get key = .ok old) (new row : α) :
    (table.put key new).toList.count row + (if old = row then 1 else 0) =
      table.toList.count row + if new = row then 1 else 0 := by
  rw [get_eq_ok_iff, ← Array.getElem?_toList] at found
  obtain ⟨inside, same⟩ := List.getElem?_eq_some_iff.mp found
  have replaced : (table.put key new).toList = table.rows.toList.set key new :=
    Array.toList_setIfInBounds
  have occurs : old = row → 0 < table.rows.toList.count row := by
    rintro rfl
    exact List.count_pos_iff.mpr (same ▸ List.getElem_mem inside)
  rw [replaced, List.count_set inside, same, toList]
  simp only [beq_iff_eq]
  split
  · have := occurs ‹_›
    omega
  · omega

end Table

end UnitPropagation
