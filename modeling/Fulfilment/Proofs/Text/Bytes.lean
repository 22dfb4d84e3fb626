import Fulfilment.Ident
import Mathlib.Data.String.Basic

/-!
# Names byte by byte

Names are compared by code points. That is the order of their bytes in UTF-8 as well: of two
characters the lower one has the lower bytes, and neither encoding begins the other
(`utf8EncodeChar_lt`).
-/
namespace Fulfilment
namespace Text

/-- The bytes of a text in UTF-8. -/
def bytes (s : String) : List UInt8 := s.toByteArray.data.toList

theorem bytes_eq_flatMap (s : String) : bytes s = s.toList.flatMap String.utf8EncodeChar := by
  rw [bytes, ← String.utf8Encode_toList, List.utf8Encode, List.data_toByteArray]

/-- The lower of two characters has the lower bytes, whatever follows either. -/
theorem utf8EncodeChar_lt {c d : Char} (h : c < d) (x y : List UInt8) :
    String.utf8EncodeChar c ++ x < String.utf8EncodeChar d ++ y := by
  have hval : c.val.toNat < d.val.toNat := h
  have hmax : d.val.toNat < 0x110000 := by
    have := d.valid
    simp only [UInt32.isValidChar, Nat.isValidChar] at this
    omega
  unfold String.utf8EncodeChar
  generalize c.val.toNat = m at hval
  generalize d.val.toNat = n at hval hmax
  -- the digits of base 64 decide from the last to the first
  have low : m / 64 < n / 64 ∨ m / 64 = n / 64 ∧ m % 64 < n % 64 := by omega
  have middle : m / 64 ≤ n / 64 → m / 4096 < n / 4096 ∨
      m / 4096 = n / 4096 ∧ (m / 64 % 64 < n / 64 % 64 ∨ m / 64 = n / 64) := by omega
  have high : m / 4096 ≤ n / 4096 → m / 262144 < n / 262144 ∨
      m / 262144 = n / 262144 ∧ (m / 4096 % 64 < n / 4096 % 64 ∨ m / 4096 = n / 4096) := by omega
  have top : ∀ k, k < 0x110000 → k / 262144 % 8 = k / 262144 := fun k hk => by omega
  have hm := top m (Nat.lt_trans hval hmax)
  have hn := top n hmax
  -- no byte is so high that it wraps around
  have follows : ∀ k, (k % 64 + 128) % 256 = k % 64 + 128 := fun k => by omega
  have leads2 : ∀ k, (k % 32 + 192) % 256 = k % 32 + 192 := fun k => by omega
  have leads3 : ∀ k, (k % 16 + 224) % 256 = k % 16 + 224 := fun k => by omega
  have leads4 : ∀ k, (k % 8 + 240) % 256 = k % 8 + 240 := fun k => by omega
  dsimp only
  split_ifs <;>
    simp only [List.cons_append, List.nil_append, List.cons_lt_cons_iff, UInt8.lt_iff_toNat_lt,
      ← UInt8.toNat_inj, UInt8.toNat_ofNat', Nat.reducePow, follows, leads2, leads3, leads4] <;>
    omega

/-- Texts in ascending order of characters have bytes in ascending order. -/
theorem flatMap_utf8EncodeChar_lt {cs ds : List Char} (h : cs < ds) :
    cs.flatMap String.utf8EncodeChar < ds.flatMap String.utf8EncodeChar := by
  induction cs generalizing ds with
  | nil =>
    cases ds with
    | nil => exact absurd h (List.lt_irrefl [])
    | cons d ds =>
      have hsome : String.utf8EncodeChar d ≠ [] := by
        unfold String.utf8EncodeChar
        dsimp only
        split_ifs <;> simp
      rw [List.flatMap_nil, List.flatMap_cons]
      cases hd : String.utf8EncodeChar d with
      | nil => exact absurd hd hsome
      | cons b bs => exact List.nil_lt_cons ..
  | cons c cs ih =>
    cases ds with
    | nil => exact absurd h (List.not_lt_nil _)
    | cons d ds =>
      rw [List.flatMap_cons, List.flatMap_cons]
      rcases List.cons_lt_cons_iff.1 h with hlt | ⟨rfl, hlt⟩
      · exact utf8EncodeChar_lt hlt _ _
      · exact List.append_left_lt (ih hlt)

/-- Texts are ordered by their bytes. -/
theorem compare_eq_lt_iff_bytes {s t : String} : compare s t = .lt ↔ bytes s < bytes t := by
  have forwards : ∀ {s t : String}, s < t → bytes s < bytes t := by
    intro s t h
    rw [bytes_eq_flatMap, bytes_eq_flatMap]
    exact flatMap_utf8EncodeChar_lt (String.lt_iff.1 h)
  rw [show compare s t = compareOfLessAndEq s t from rfl, compareOfLessAndEq_eq_lt]
  refine ⟨forwards, fun h => ?_⟩
  rcases lt_trichotomy s t with hlt | rfl | hlt
  · exact hlt
  · exact absurd h (List.lt_irrefl _)
  · exact absurd (List.lt_trans h (forwards hlt)) (List.lt_irrefl _)

end Text

theorem ProductId.compare_eq_lt_iff {p q : ProductId} :
    compare p q = .lt ↔ Text.bytes p.text < Text.bytes q.text :=
  Text.compare_eq_lt_iff_bytes

end Fulfilment
