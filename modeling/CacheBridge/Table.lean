/-!
Tables: values under string keys, at most one for each key. A table is seen through `get?`; the
lemmas say what each operation does to that view.
-/

namespace CacheBridge

/-- Values under keys, the latest written first. -/
structure Table (α : Type u) where
  rows : List (String × α) := []
  deriving Inhabited

namespace Table

variable {α : Type u} {β : Type v}

def empty : Table α := {}

def get? (t : Table α) (k : String) : Option α := t.rows.lookup k

def has (t : Table α) (k : String) : Bool := (t.get? k).isSome

def remove (t : Table α) (k : String) : Table α := ⟨t.rows.filter (·.1 != k)⟩

/-- Writes a value; what stood under the key is gone. -/
def put (t : Table α) (k : String) (v : α) : Table α := ⟨(k, v) :: (t.remove k).rows⟩

/-- Writes the rows one after the other. -/
def putAll (t : Table α) (rows : List (String × α)) : Table α :=
  rows.foldl (fun t (k, v) => t.put k v) t

def ofList (rows : List (String × α)) : Table α := empty.putAll rows

def size (t : Table α) : Nat := t.rows.length

theorem lookup_cons_ite (rows : List (String × α)) (i j : String) (v : α) :
    ((i, v) :: rows).lookup j = if j = i then some v else rows.lookup j := by
  by_cases h : j = i
  · simp [h]
  · have hb : (j == i) = false := by simpa using h
    simp [List.lookup_cons, hb, h]

theorem lookup_filter_ne (rows : List (String × α)) (j k : String) :
    (rows.filter (·.1 != k)).lookup j = if j = k then none else rows.lookup j := by
  induction rows with
  | nil => simp
  | cons r rows ih =>
    obtain ⟨i, v⟩ := r
    by_cases hik : i = k
    · rw [List.filter_cons_of_neg (by simpa using hik), ih, lookup_cons_ite, hik]
      split <;> rfl
    · rw [List.filter_cons_of_pos (by simpa using hik), lookup_cons_ite, lookup_cons_ite, ih]
      split
      · next h => rw [if_neg (h ▸ hik)]
      · rfl

theorem get?_remove (t : Table α) (j k : String) :
    (t.remove k).get? j = if j = k then none else t.get? j :=
  lookup_filter_ne t.rows j k

theorem get?_put (t : Table α) (j k : String) (v : α) :
    (t.put k v).get? j = if j = k then some v else t.get? j := by
  have h := get?_remove t j k
  simp only [get?, put, lookup_cons_ite] at h ⊢
  split <;> simp_all

@[simp] theorem get?_put_self (t : Table α) (k : String) (v : α) : (t.put k v).get? k = some v := by
  simp [get?_put]

theorem get?_put_of_ne (t : Table α) {j k : String} (v : α) (h : j ≠ k) :
    (t.put k v).get? j = t.get? j := by
  simp [get?_put, h]

@[simp] theorem get?_remove_self (t : Table α) (k : String) : (t.remove k).get? k = none := by
  simp [get?_remove]

theorem get?_remove_of_ne (t : Table α) {j k : String} (h : j ≠ k) :
    (t.remove k).get? j = t.get? j := by
  simp [get?_remove, h]

end Table

end CacheBridge
