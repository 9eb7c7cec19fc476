namespace CallResolution

variable {κ α : Type}

/-- A finite map in the order in which its keys came. -/
structure Dictionary (κ α : Type) where
  entries : List (κ × α)
  nodup_keys : (entries.map Prod.fst).Nodup

namespace Dictionary

instance : EmptyCollection (Dictionary κ α) := ⟨[], .nil⟩

instance : Inhabited (Dictionary κ α) := ⟨∅⟩

def keys (d : Dictionary κ α) : List κ := d.entries.map Prod.fst

def size (d : Dictionary κ α) : Nat := d.entries.length

variable [DecidableEq κ]

def put (k : κ) (a : α) : List (κ × α) → List (κ × α)
  | [] => [(k, a)]
  | (l, b) :: es => if l = k then (k, a) :: es else (l, b) :: put k a es

def get (k : κ) : List (κ × α) → Option α
  | [] => none
  | (l, b) :: es => if l = k then some b else get k es

theorem keys_put (k : κ) (a : α) (es : List (κ × α)) :
    (put k a es).map Prod.fst =
      if k ∈ es.map Prod.fst then es.map Prod.fst else es.map Prod.fst ++ [k] := by
  induction es with
  | nil => simp [put]
  | cons e es ih =>
    obtain ⟨l, b⟩ := e
    by_cases h : l = k
    · simp [put, h]
    · simp only [put, h, if_false, List.map_cons, ih, List.mem_cons]
      by_cases hk : k ∈ es.map Prod.fst <;> simp [hk, Ne.symm h]

theorem get_put (k l : κ) (a : α) (es : List (κ × α)) :
    get l (put k a es) = if l = k then some a else get l es := by
  induction es with
  | nil => simp only [put, get, eq_comm]
  | cons e es ih =>
    obtain ⟨j, b⟩ := e
    by_cases h : j = k
    · subst h
      by_cases hl : l = j
      · simp [put, get, hl]
      · simp [put, get, hl, Ne.symm hl]
    · by_cases hj : j = l
      · subst hj
        simp [put, get, h]
      · simp [put, get, h, hj, ih]

def insert (d : Dictionary κ α) (k : κ) (a : α) : Dictionary κ α where
  entries := put k a d.entries
  nodup_keys := by
    rw [keys_put]
    split
    · exact d.nodup_keys
    · rename_i h
      refine List.nodup_append.2 ⟨d.nodup_keys, by simp, ?_⟩
      rintro x hx y hy rfl
      rw [List.mem_singleton.1 hy] at hx
      exact h hx

def find? (d : Dictionary κ α) (k : κ) : Option α := get k d.entries

def contains (d : Dictionary κ α) (k : κ) : Bool := (d.find? k).isSome

def ofList (ps : List (κ × α)) : Dictionary κ α := ps.foldl (fun d p ↦ d.insert p.1 p.2) ∅

@[simp] theorem find?_empty (k : κ) : (∅ : Dictionary κ α).find? k = none := rfl

theorem find?_insert (d : Dictionary κ α) (k l : κ) (a : α) :
    (d.insert k a).find? l = if l = k then some a else d.find? l :=
  get_put k l a d.entries

@[simp] theorem find?_insert_self (d : Dictionary κ α) (k : κ) (a : α) :
    (d.insert k a).find? k = some a := by
  simp [find?_insert]

theorem find?_insert_of_ne (d : Dictionary κ α) {k l : κ} (a : α) (h : l ≠ k) :
    (d.insert k a).find? l = d.find? l := by
  simp [find?_insert, h]

end Dictionary

end CallResolution
