import Mathlib.Data.String.Basic

/-! The byte order of texts is the order of their characters: UTF-8 keeps the order of code points,
since a character with a greater code point has greater bytes at the first place where the bytes of
the two differ. -/

namespace RouteDoc.Text

/-- The bytes of a text, as a file system holds its names. -/
def bytes (text : String) : List UInt8 := text.toUTF8.data.toList

theorem bytes_eq (text : String) : bytes text = text.toList.flatMap String.utf8EncodeChar := by
  have h : text.toUTF8 = text.toList.utf8Encode := by
    conv => lhs; rw [← String.ofList_toList (s := text)]
    rfl
  rw [bytes, h, List.utf8Encode, List.toList_data_toByteArray]

-- The encoding cuts a code point into digits in base 64, of which the first byte holds the top one.

theorem div_lt_iff_base (k m n : Nat) : m / k < n / k ↔ m / (k * 64) < n / (k * 64) ∨
    m / (k * 64) = n / (k * 64) ∧ m / k % 64 < n / k % 64 := by
  rw [← Nat.div_div_eq_div_mul, ← Nat.div_div_eq_div_mul]
  omega

theorem div_eq_iff_base (k m n : Nat) : m / k = n / k ↔
    m / (k * 64) = n / (k * 64) ∧ m / k % 64 = n / k % 64 := by
  rw [← Nat.div_div_eq_div_mul, ← Nat.div_div_eq_div_mul]
  omega

theorem val_toNat_lt (c : Char) : c.val.toNat < 0x110000 := by
  have h : c.val.isValidChar := c.valid
  rw [UInt32.isValidChar, Nat.isValidChar] at h
  omega

/-- The first characters decide the order of bytes, whatever follows them. -/
theorem utf8EncodeChar_append_lt {c d : Char} (h : c < d) (s t : List UInt8) :
    String.utf8EncodeChar c ++ s < String.utf8EncodeChar d ++ t := by
  have hlt : c.val.toNat < d.val.toNat := h
  have hd : d.val.toNat < 0x110000 := val_toNat_lt d
  unfold String.utf8EncodeChar
  generalize c.val.toNat = m at *
  generalize d.val.toNat = n at *
  have h1 := div_lt_iff_base 1 m n
  have h2 := div_lt_iff_base 64 m n
  have h3 := div_lt_iff_base 4096 m n
  have h4 := div_eq_iff_base 64 m n
  have h5 := div_eq_iff_base 4096 m n
  simp only [Nat.div_one, Nat.reduceMul] at h1 h2 h3 h4 h5
  dsimp only
  -- One case for each pair of lengths; a longer encoding has the greater first byte.
  repeat' split
  all_goals simp only [List.cons_append, List.cons_lt_cons_iff, UInt8.lt_iff_toNat_lt,
    ← UInt8.toNat_inj, UInt8.toNat_ofNat']
  all_goals simp (disch := omega) only [Nat.mod_eq_of_lt, Nat.add_lt_add_iff_right,
    Nat.add_right_cancel_iff]
  all_goals omega

theorem flatMap_utf8EncodeChar_lt {s t : List Char} (h : s < t) :
    s.flatMap String.utf8EncodeChar < t.flatMap String.utf8EncodeChar := by
  induction h with
  | @nil d t =>
    rw [List.flatMap_nil, List.flatMap_cons]
    obtain ⟨b, bs, hd⟩ := List.exists_cons_of_ne_nil (l := String.utf8EncodeChar d) (by simp)
    rw [hd]
    exact List.nil_lt_cons _ _
  | cons h ih =>
    rw [List.flatMap_cons, List.flatMap_cons]
    exact List.append_left_lt ih
  | rel h =>
    rw [List.flatMap_cons, List.flatMap_cons]
    exact utf8EncodeChar_append_lt h _ _

theorem bytes_lt_of_lt {s t : String} (h : s < t) : bytes s < bytes t := by
  rw [bytes_eq, bytes_eq]
  exact flatMap_utf8EncodeChar_lt (String.lt_iff_toList_lt.mp h)

theorem bytes_lt_iff {s t : String} : bytes s < bytes t ↔ s < t := by
  refine ⟨fun h => ?_, bytes_lt_of_lt⟩
  rcases lt_trichotomy s t with hlt | rfl | hlt
  · exact hlt
  · exact absurd h (List.lt_irrefl _)
  · exact absurd h (List.lt_asymm (bytes_lt_of_lt hlt))

theorem bytes_le_iff {s t : String} : bytes s ≤ bytes t ↔ s ≤ t := by
  rw [← not_lt, ← bytes_lt_iff]
  rfl

end RouteDoc.Text
