/-! Tables: finite maps that remember the order in which their keys were first put in. Putting a
value to a key that is there replaces the value and keeps the key's place. The main statements give
the keys and the value at each key after every operation. -/

namespace RouteDoc

universe u v w

/-- A finite map with its entries in the order of first insertion. -/
structure Table (κ : Type u) (α : Type v) where
  entries : List (κ × α)
  nodup : (entries.map Prod.fst).Nodup

namespace Table

variable {κ : Type u} {α : Type v} {β : Type w}

@[ext] theorem ext {s t : Table κ α} (h : s.entries = t.entries) : s = t := by
  cases s; cases t; cases h; rfl

def empty : Table κ α := ⟨[], List.nodup_nil⟩

instance : EmptyCollection (Table κ α) := ⟨empty⟩

instance : Inhabited (Table κ α) := ⟨empty⟩

instance [DecidableEq κ] [DecidableEq α] : DecidableEq (Table κ α) := fun s t =>
  decidable_of_iff (s.entries = t.entries) ⟨Table.ext, fun h => h ▸ rfl⟩

def keys (t : Table κ α) : List κ := t.entries.map Prod.fst

def values (t : Table κ α) : List α := t.entries.map Prod.snd

def size (t : Table κ α) : Nat := t.entries.length

def isEmpty (t : Table κ α) : Bool := t.entries.isEmpty

/-- The entries whose key and value satisfy `p`. -/
def filter (p : κ → α → Bool) (t : Table κ α) : Table κ α :=
  ⟨t.entries.filter fun e => p e.1 e.2,
    t.nodup.sublist (List.filter_sublist.map Prod.fst)⟩

/-- The table with `f` applied to every value. -/
def mapValues (f : α → β) (t : Table κ α) : Table κ β :=
  ⟨t.entries.map fun e => (e.1, f e.2), by
    simpa [List.map_map, Function.comp_def] using t.nodup⟩

@[simp] theorem entries_empty : (∅ : Table κ α).entries = [] := rfl

@[simp] theorem keys_empty : (∅ : Table κ α).keys = [] := rfl

@[simp] theorem values_mapValues (f : α → β) (t : Table κ α) :
    (t.mapValues f).values = t.values.map f := by
  simp [values, mapValues]

@[simp] theorem keys_mapValues (f : α → β) (t : Table κ α) : (t.mapValues f).keys = t.keys := by
  simp [keys, mapValues]

variable [DecidableEq κ]

/-- The value of the first entry with the key `k`. -/
def valueIn? (k : κ) : List (κ × α) → Option α
  | [] => none
  | e :: es => if e.1 = k then some e.2 else valueIn? k es

/-- The entries with the value at `k` replaced, or with a new entry at the end. -/
def putIn (k : κ) (a : α) : List (κ × α) → List (κ × α)
  | [] => [(k, a)]
  | e :: es => if e.1 = k then (k, a) :: es else e :: putIn k a es

/-- The keys after a key has been put in. -/
def withKey (k : κ) (ks : List κ) : List κ :=
  if k ∈ ks then ks else ks ++ [k]

theorem keys_putIn (k : κ) (a : α) (es : List (κ × α)) :
    (putIn k a es).map Prod.fst = withKey k (es.map Prod.fst) := by
  induction es with
  | nil => simp [putIn, withKey]
  | cons e es ih =>
    by_cases h : e.1 = k
    · simp [putIn, withKey, h]
    · have h' : ¬k = e.1 := fun he => h he.symm
      by_cases hk : k ∈ es.map Prod.fst
      · simp_all [putIn, withKey]
      · simp only [withKey, hk, if_false] at ih
        simp [putIn, withKey, h, h', ih]
        simpa using hk

theorem nodup_withKey {k : κ} {ks : List κ} (h : ks.Nodup) : (withKey k ks).Nodup := by
  unfold withKey
  split
  · exact h
  · rename_i hk
    exact List.nodup_append.mpr ⟨h, by simp, by
      intro x hx y hy
      rw [List.mem_singleton.mp hy]
      exact fun he => hk (he ▸ hx)⟩

theorem valueIn?_putIn (k k' : κ) (a : α) (es : List (κ × α)) :
    valueIn? k' (putIn k a es) = if k = k' then some a else valueIn? k' es := by
  induction es with
  | nil => simp [putIn, valueIn?]
  | cons e es ih =>
    by_cases h : e.1 = k
    · by_cases hk : k = k' <;> simp [putIn, valueIn?, h, hk]
    · by_cases hk : e.1 = k'
      · subst hk
        have h' : ¬k = e.1 := fun he => h he.symm
        simp [putIn, valueIn?, h, h']
      · simp [putIn, valueIn?, h, hk, ih]

def find? (t : Table κ α) (k : κ) : Option α := valueIn? k t.entries

def contains (t : Table κ α) (k : κ) : Bool := (t.find? k).isSome

/-- The table with the value `a` at `k`: in place if the key is there, and else at the end. -/
def insert (t : Table κ α) (k : κ) (a : α) : Table κ α :=
  ⟨putIn k a t.entries, by rw [keys_putIn]; exact nodup_withKey t.nodup⟩

/-- The table with the value `a` at `k`, unless the key is there already. -/
def insertNew (t : Table κ α) (k : κ) (a : α) : Table κ α :=
  if t.contains k then t else t.insert k a

/-- The table with a list of entries put in one after the other. -/
def insertAll (t : Table κ α) (es : List (κ × α)) : Table κ α :=
  es.foldl (fun t e => t.insert e.1 e.2) t

def ofList (es : List (κ × α)) : Table κ α := insertAll ∅ es

@[simp] theorem find?_empty (k : κ) : (∅ : Table κ α).find? k = none := rfl

theorem keys_insert (t : Table κ α) (k : κ) (a : α) : (t.insert k a).keys = withKey k t.keys :=
  keys_putIn k a t.entries

theorem find?_insert (t : Table κ α) (k k' : κ) (a : α) :
    (t.insert k a).find? k' = if k = k' then some a else t.find? k' :=
  valueIn?_putIn k k' a t.entries

theorem isSome_valueIn?_iff {k : κ} {es : List (κ × α)} :
    (valueIn? k es).isSome = true ↔ k ∈ es.map Prod.fst := by
  induction es with
  | nil => simp [valueIn?]
  | cons e es ih =>
    by_cases h : e.1 = k
    · simp [valueIn?, h]
    · have h' : ¬k = e.1 := fun he => h he.symm
      simp only [valueIn?, h, if_false, ih, List.map_cons, List.mem_cons, h', false_or]

theorem contains_iff {t : Table κ α} {k : κ} : t.contains k = true ↔ k ∈ t.keys :=
  isSome_valueIn?_iff

end Table

end RouteDoc
