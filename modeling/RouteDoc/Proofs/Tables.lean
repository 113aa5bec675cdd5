import RouteDoc.Field

/-! Tables that are filled one entry after the other: which entries they can have, in which order
their keys come, and when a list of entries comes back as it was put in. -/

namespace RouteDoc.Table

variable {κ α : Type} [DecidableEq κ]

/-! ### Entries -/

theorem mem_putIn {k : κ} {a : α} {es : List (κ × α)} {e : κ × α} (h : e ∈ putIn k a es) :
    e = (k, a) ∨ e ∈ es := by
  induction es with
  | nil => simpa [putIn] using h
  | cons d es ih =>
    unfold putIn at h
    split at h
    · rcases List.mem_cons.mp h with h | h
      · exact .inl h
      · exact .inr (by simp [h])
    · rcases List.mem_cons.mp h with h | h
      · exact .inr (by simp [h])
      · rcases ih h with h | h
        · exact .inl h
        · exact .inr (by simp [h])

theorem mem_insertAll {t : Table κ α} {es : List (κ × α)} {e : κ × α}
    (h : e ∈ (t.insertAll es).entries) : e ∈ t.entries ∨ e ∈ es := by
  induction es generalizing t with
  | nil => exact .inl h
  | cons d es ih =>
    rcases ih (t := t.insert d.1 d.2) h with h | h
    · rcases mem_putIn h with h | h
      · exact .inr (by simp [h])
      · exact .inl h
    · exact .inr (by simp [h])

theorem mem_ofList {es : List (κ × α)} {e : κ × α} (h : e ∈ (ofList es).entries) : e ∈ es := by
  rcases mem_insertAll h with h | h
  · cases h
  · exact h

theorem mem_insertNew {t : Table κ α} {k : κ} {a : α} {e : κ × α}
    (h : e ∈ (t.insertNew k a).entries) : e = (k, a) ∨ e ∈ t.entries := by
  unfold insertNew at h
  split at h
  · exact .inr h
  · exact mem_putIn h

theorem mem_foldl_insertNew {t : Table κ α} {es : List (κ × α)} {e : κ × α}
    (h : e ∈ (es.foldl (fun t e => t.insertNew e.1 e.2) t).entries) : e ∈ t.entries ∨ e ∈ es := by
  induction es generalizing t with
  | nil => exact .inl h
  | cons d es ih =>
    rcases ih (t := t.insertNew d.1 d.2) h with h | h
    · rcases mem_insertNew h with h | h
      · exact .inr (by simp [h])
      · exact .inl h
    · exact .inr (by simp [h])

theorem mem_of_valueIn? {k : κ} {a : α} {es : List (κ × α)} (h : valueIn? k es = some a) :
    (k, a) ∈ es := by
  induction es with
  | nil => cases h
  | cons e es ih =>
    unfold valueIn? at h
    split at h
    · rename_i hk
      cases h
      exact List.mem_cons.mpr (.inl (by rw [← hk]))
    · exact List.mem_cons.mpr (.inr (ih h))

theorem mem_of_find? {t : Table κ α} {k : κ} {a : α} (h : t.find? k = some a) :
    (k, a) ∈ t.entries :=
  mem_of_valueIn? h

/-- The value at the key of an entry is the entry's, as no key stands twice. -/
theorem find?_of_mem {t : Table κ α} {e : κ × α} (h : e ∈ t.entries) : t.find? e.1 = some e.2 := by
  obtain ⟨es, hnodup⟩ := t
  change valueIn? e.1 es = some e.2
  induction es with
  | nil => cases h
  | cons d es ih =>
    simp only [List.map_cons, List.nodup_cons] at hnodup
    rcases List.mem_cons.mp h with rfl | hmem
    · simp [valueIn?]
    · have hne : d.1 ≠ e.1 := fun hd => hnodup.1 (hd ▸ List.mem_map_of_mem hmem)
      rw [valueIn?, if_neg hne]
      exact ih hnodup.2 hmem

/-- In a table only one entry has a key. -/
theorem filter_key (t : Table κ α) {e : κ × α}
    (he : e ∈ t.entries) : t.entries.filter (·.1 = e.1) = [e] := by
  obtain ⟨es, hnodup⟩ := t
  change e ∈ es at he
  induction es with
  | nil => cases he
  | cons d es ih =>
    simp only [List.map_cons, List.nodup_cons] at hnodup
    rcases List.mem_cons.mp he with rfl | hmem
    · have hrest : es.filter (·.1 = e.1) = [] := by
        refine List.filter_eq_nil_iff.mpr fun f hf hkey => hnodup.1 ?_
        rw [← of_decide_eq_true hkey]
        exact List.mem_map_of_mem hf
      rw [List.filter_cons_of_pos (by simp), hrest]
    · have hne : d.1 ≠ e.1 := fun hd => hnodup.1 (hd ▸ List.mem_map_of_mem hmem)
      rw [List.filter_cons_of_neg (by simpa using hne)]
      exact ih hnodup.2 hmem

/-- A table is known by its keys and the value at each. -/
theorem entries_eq (t : Table κ α) {f : κ → α} (h : ∀ k ∈ t.keys, t.find? k = some (f k)) :
    t.entries = t.keys.map fun k => (k, f k) := by
  rw [keys, List.map_map]
  have hid : t.entries = t.entries.map id := (List.map_id _).symm
  refine hid.trans (List.map_congr_left fun e he => ?_)
  have hfind := (find?_of_mem he).symm.trans (h e.1 (List.mem_map_of_mem he))
  exact Prod.ext rfl (Option.some.inj hfind)

theorem find?_of_perm {s t : Table κ α} (h : s.entries.Perm t.entries) (k : κ) :
    s.find? k = t.find? k := by
  cases ht : t.find? k with
  | some a => exact find?_of_mem (h.mem_iff.mpr (mem_of_find? ht))
  | none =>
    cases hs : s.find? k with
    | none => rfl
    | some a =>
      have hfind := find?_of_mem (h.mem_iff.mp (mem_of_find? hs))
      exact absurd (ht.symm.trans hfind) (by simp)

/-! ### Keys -/

/-- Keys that are put in one after the other come in the order of their first appearance. -/
theorem foldl_withKey [BEq κ] [LawfulBEq κ] (xs ks : List κ) :
    xs.foldl (fun ks k => withKey k ks) ks = ks ++ (xs.filter (· ∉ ks)).eraseDups := by
  induction xs generalizing ks with
  | nil => simp
  | cons x xs ih =>
    rw [List.foldl_cons, ih, withKey]
    split
    · rename_i hx
      simp [hx]
    · rename_i hx
      rw [List.filter_cons_of_pos (by simpa using hx), List.eraseDups_cons, List.append_assoc,
        List.singleton_append, List.filter_filter]
      congr 3
      refine List.filter_congr fun k _ => ?_
      rw [Bool.eq_iff_iff]
      simp [and_comm, not_or]

theorem foldl_withKey_nil [BEq κ] [LawfulBEq κ] (xs : List κ) :
    xs.foldl (fun ks k => withKey k ks) [] = xs.eraseDups := by
  rw [foldl_withKey, List.nil_append, List.filter_eq_self.mpr (by simp)]

theorem putIn_of_not_mem {k : κ} {es : List (κ × α)} (h : k ∉ es.map Prod.fst) (a : α) :
    putIn k a es = es ++ [(k, a)] := by
  induction es with
  | nil => rfl
  | cons e es ih =>
    simp only [List.map_cons, List.mem_cons, not_or] at h
    rw [putIn, if_neg (Ne.symm h.1), ih h.2, List.cons_append]

theorem putIn_of_valueIn? {k : κ} {a : α} {es : List (κ × α)} (h : valueIn? k es = some a) :
    putIn k a es = es := by
  induction es with
  | nil => cases h
  | cons e es ih =>
    rw [valueIn?] at h
    rw [putIn]
    split at h
    · rename_i hk
      obtain rfl : e.2 = a := Option.some.inj h
      rw [if_pos hk, ← hk]
    · rename_i hk
      rw [if_neg hk, ih h]

/-- A value that is there already can be put in again. -/
theorem insert_of_find? {t : Table κ α} {k : κ} {a : α} (h : t.find? k = some a) :
    t.insert k a = t :=
  Table.ext (putIn_of_valueIn? h)

/-- What is picked from entries stays the same if a value is replaced by one from which the same is
picked. -/
theorem filterMap_putIn {β : Type} {f : κ × α → Option β} {k : κ} {a b : α} {es : List (κ × α)}
    (h : valueIn? k es = some a) (hf : f (k, a) = f (k, b)) :
    (putIn k b es).filterMap f = es.filterMap f := by
  induction es with
  | nil => cases h
  | cons e es ih =>
    rw [valueIn?] at h
    rw [putIn]
    split at h
    · rename_i hk
      obtain rfl : e.2 = a := Option.some.inj h
      have he : f e = f (k, b) := by rw [← hf, ← hk]
      rw [if_pos hk, List.filterMap_cons, List.filterMap_cons, he]
    · rename_i hk
      rw [if_neg hk, List.filterMap_cons, List.filterMap_cons, ih h]

theorem entries_insertNew (t : Table κ α) (k : κ) (a : α) :
    (t.insertNew k a).entries = if k ∈ t.keys then t.entries else t.entries ++ [(k, a)] := by
  rw [insertNew]
  by_cases h : k ∈ t.keys
  · rw [if_pos (contains_iff.mpr h), if_pos h]
  · rw [if_neg fun hc => h (contains_iff.mp hc), if_neg h]
    exact putIn_of_not_mem h a

theorem keys_insertNew (t : Table κ α) (k : κ) (a : α) :
    (t.insertNew k a).keys = withKey k t.keys := by
  rw [keys, entries_insertNew, withKey]
  split
  · rfl
  · simp [keys]

/-- Entries with new keys of their own are put in as they stand. -/
theorem entries_foldl_insertNew {t : Table κ α} {es : List (κ × α)}
    (h : (t.keys ++ es.map Prod.fst).Nodup) :
    (es.foldl (fun t e => t.insertNew e.1 e.2) t).entries = t.entries ++ es := by
  induction es generalizing t with
  | nil => simp
  | cons e es ih =>
    have hnew : e.1 ∉ t.keys := by
      intro hmem
      rw [List.nodup_append] at h
      exact h.2.2 e.1 hmem e.1 (by simp) rfl
    have hentries : (t.insertNew e.1 e.2).entries = t.entries ++ [e] := by
      rw [entries_insertNew, if_neg hnew]
    have hkeys : ((t.insertNew e.1 e.2).keys ++ es.map Prod.fst).Nodup := by
      simpa [keys, hentries] using h
    rw [List.foldl_cons, ih hkeys, hentries, List.append_assoc, List.singleton_append]

/-- To put in entries one after the other adds those with new keys, as they would stand in a table
of their own. -/
theorem entries_foldl_insertNew_append (t : Table κ α) (es : List (κ × α)) :
    (es.foldl (fun t e => t.insertNew e.1 e.2) t).entries = t.entries ++
      (es.foldl (fun t e => t.insertNew e.1 e.2) (∅ : Table κ α)).entries.filter (·.1 ∉ t.keys) := by
  induction es generalizing t with
  | nil => simp
  | cons e es ih =>
    have hone : ((∅ : Table κ α).insertNew e.1 e.2).entries = [e] := by simp [entries_insertNew]
    have hkey : ((∅ : Table κ α).insertNew e.1 e.2).keys = [e.1] := by rw [keys, hone]; rfl
    rw [List.foldl_cons, List.foldl_cons, ih, ih ((∅ : Table κ α).insertNew e.1 e.2), hone, hkey,
      List.filter_append, List.filter_filter, entries_insertNew, keys_insertNew, withKey]
    by_cases he : e.1 ∈ t.keys
    · rw [if_pos he, if_pos he, List.filter_cons_of_neg (by simpa using he), List.filter_nil,
        List.nil_append]
      congr 1
      refine List.filter_congr fun d _ => ?_
      rw [Bool.eq_iff_iff]
      simp only [decide_eq_true_eq, Bool.and_eq_true, List.mem_singleton]
      exact ⟨fun hd => ⟨hd, fun h => hd (h ▸ he)⟩, And.left⟩
    · rw [if_neg he, if_neg he, List.filter_cons_of_pos (by simpa using he), List.filter_nil,
        List.append_assoc]
      congr 2
      refine List.filter_congr fun d _ => ?_
      rw [Bool.eq_iff_iff]
      simp only [decide_eq_true_eq, Bool.and_eq_true, List.mem_append, not_or]

theorem keys_foldl_insertNew (t : Table κ α) (es : List (κ × α)) :
    (es.foldl (fun t e => t.insertNew e.1 e.2) t).keys =
      (es.map Prod.fst).foldl (fun ks k => withKey k ks) t.keys := by
  induction es generalizing t with
  | nil => rfl
  | cons e es ih => rw [List.foldl_cons, ih, keys_insertNew, List.map_cons, List.foldl_cons]

theorem keys_insertAll (t : Table κ α) (es : List (κ × α)) :
    (t.insertAll es).keys = (es.map Prod.fst).foldl (fun ks k => withKey k ks) t.keys := by
  induction es generalizing t with
  | nil => rfl
  | cons e es ih =>
    change ((t.insert e.1 e.2).insertAll es).keys = _
    rw [ih, keys_insert, List.map_cons, List.foldl_cons]

theorem keys_ofList [BEq κ] [LawfulBEq κ] (es : List (κ × α)) :
    (ofList es).keys = (es.map Prod.fst).eraseDups := by
  rw [ofList, keys_insertAll]
  exact foldl_withKey_nil _

/-! ### Values -/

/-- Of the values that are put to a key the last counts. -/
theorem find?_insertAll (t : Table κ α) (es : List (κ × α)) (k : κ) :
    (t.insertAll es).find? k =
      ((es.filter (·.1 = k)).getLast?.map Prod.snd).or (t.find? k) := by
  induction es generalizing t with
  | nil => rfl
  | cons e es ih =>
    change ((t.insert e.1 e.2).insertAll es).find? k = _
    rw [ih, find?_insert]
    by_cases he : e.1 = k
    · rw [if_pos he, List.filter_cons_of_pos (by simpa using he), List.getLast?_cons]
      cases (es.filter (·.1 = k)).getLast? <;> rfl
    · rw [if_neg he, List.filter_cons_of_neg (by simpa using he)]

theorem find?_ofList (es : List (κ × α)) (k : κ) :
    (ofList es).find? k = (es.filter (·.1 = k)).getLast?.map Prod.snd := by
  rw [ofList, find?_insertAll, find?_empty, Option.or_none]

/-- A value that is there already is kept. -/
theorem find?_insertNew (t : Table κ α) (k k' : κ) (a : α) :
    (t.insertNew k a).find? k' = (t.find? k').or (if k = k' then some a else none) := by
  rw [insertNew]
  split
  case isTrue h =>
    by_cases hk : k = k'
    · subst hk
      rw [contains, Option.isSome_iff_exists] at h
      obtain ⟨b, hb⟩ := h
      rw [hb, Option.some_or]
    · rw [if_neg hk, Option.or_none]
  case isFalse h =>
    rw [find?_insert]
    by_cases hk : k = k'
    · subst hk
      rw [contains, Option.not_isSome_iff_eq_none] at h
      rw [h, if_pos rfl, Option.none_or]
    · rw [if_neg hk, if_neg hk, Option.or_none]

theorem find?_foldl_insertNew (t : Table κ α) (es : List (κ × α)) (k : κ) :
    (es.foldl (fun t e => t.insertNew e.1 e.2) t).find? k =
      (t.find? k).or ((es.find? (·.1 = k)).map Prod.snd) := by
  induction es generalizing t with
  | nil => simp
  | cons e es ih =>
    rw [List.foldl_cons, ih, find?_insertNew, Option.or_assoc, List.find?_cons]
    by_cases he : e.1 = k <;> simp [he]

theorem find?_mapValues {β : Type} (f : α → β) (t : Table κ α) (k : κ) :
    (t.mapValues f).find? k = (t.find? k).map f := by
  obtain ⟨es, hnodup⟩ := t
  change valueIn? k (es.map fun e => (e.1, f e.2)) = (valueIn? k es).map f
  clear hnodup
  induction es with
  | nil => rfl
  | cons e es ih =>
    by_cases he : e.1 = k
    · simp [valueIn?, he]
    · simp [valueIn?, he, ih]

/-- A key has one entry, or none where it has no value. -/
theorem filter_entries (t : Table κ α) (k : κ) :
    t.entries.filter (·.1 = k) = ((t.find? k).map (k, ·)).toList := by
  obtain ⟨es, hnodup⟩ := t
  change es.filter (·.1 = k) = ((valueIn? k es).map (k, ·)).toList
  induction es with
  | nil => rfl
  | cons e es ih =>
    simp only [List.map_cons, List.nodup_cons] at hnodup
    by_cases he : e.1 = k
    · have hrest : es.filter (·.1 = k) = [] := by
        rw [List.filter_eq_nil_iff]
        intro d hd hk
        rw [decide_eq_true_eq] at hk
        exact hnodup.1 (he ▸ hk ▸ List.mem_map_of_mem hd)
      rw [List.filter_cons_of_pos (by simpa using he), hrest, valueIn?, if_pos he, ← he]
      rfl
    · rw [List.filter_cons_of_neg (by simpa using he), ih hnodup.2, valueIn?, if_neg he]

theorem mem_entries_iff {t : Table κ α} {e : κ × α} : e ∈ t.entries ↔ t.find? e.1 = some e.2 :=
  ⟨find?_of_mem, mem_of_find?⟩

/-- Tables with the same value at each key have the same entries, in some order. -/
theorem perm_of_find? {s t : Table κ α} (h : ∀ k, s.find? k = t.find? k) :
    s.entries.Perm t.entries := by
  have hnodup : ∀ t : Table κ α, t.entries.Nodup := fun t =>
    List.Pairwise.of_map Prod.fst (fun _ _ hne heq => hne (heq ▸ rfl)) t.nodup
  rw [List.perm_ext_iff_of_nodup (hnodup s) (hnodup t)]
  intro e
  rw [mem_entries_iff, mem_entries_iff, h]

theorem contains_congr {s t : Table κ α} {k : κ} (h : s.find? k = t.find? k) :
    s.contains k = t.contains k := by
  rw [contains, contains, h]

end RouteDoc.Table

namespace RouteDoc.Fields

/-- Fields come from the declarations that they are made of. -/
theorem mem_ofDeclarations {declarations : List (String × Field)} {e : String × Field}
    (h : e ∈ (ofDeclarations declarations).entries) : e ∈ declarations := by
  rcases Table.mem_foldl_insertNew h with h | h
  · cases h
  · exact h

theorem entries_ofDeclarations {declarations : List (String × Field)}
    (h : (declarations.map Prod.fst).Nodup) : (ofDeclarations declarations).entries = declarations :=
  Table.entries_foldl_insertNew (t := ∅) h

theorem keys_ofDeclarations (declarations : List (String × Field)) :
    (ofDeclarations declarations).keys = (declarations.map Prod.fst).eraseDups := by
  rw [ofDeclarations, Table.keys_foldl_insertNew]
  exact Table.foldl_withKey_nil _

theorem find?_ofDeclarations (declarations : List (String × Field)) (name : String) :
    (ofDeclarations declarations).find? name =
      (declarations.find? (·.1 = name)).map Prod.snd := by
  rw [ofDeclarations, Table.find?_foldl_insertNew]
  rfl

theorem entries_ofDeclarations_append (declarations more : List (String × Field)) :
    (ofDeclarations (declarations ++ more)).entries = (ofDeclarations declarations).entries ++
      (ofDeclarations more).entries.filter (·.1 ∉ (ofDeclarations declarations).keys) := by
  rw [ofDeclarations, List.foldl_append]
  exact Table.entries_foldl_insertNew_append _ more

end RouteDoc.Fields
