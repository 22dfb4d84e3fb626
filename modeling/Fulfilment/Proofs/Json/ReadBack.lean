import Fulfilment.Json.Read
import Fulfilment.Json.Render
import Fulfilment.Proofs.Text.Numeral

/-!
# Reading documents back

Every document is read back from its text and from its bytes (`ofText?_toText`, `ofBytes?_toUTF8`),
also one with names that repeat, with strings that are no text, and with numbers of any size. A part
inside a document is read back if what follows it closes it (`Closes`): a comma or a bracket, but
nothing that a number could go on with. Each step of the reader takes a character at least, so as
many steps as characters are enough.
-/
namespace Fulfilment
namespace Json

open Numeral

/-! ## Strings -/

theorem readPieces_short {e c : Char} (h : shortEscape? e = some c) (gs : List Glyph) :
    readPieces (some '\\' :: some e :: gs) =
      (readPieces gs).map fun (ps, rest) => (.char c :: ps, rest) := by
  have hu : e ≠ 'u' := by
    rintro rfl
    cases h
  rw [readPieces, h, Option.map_eq_bind]
  · rfl
  · exact fun _ _ _ _ _ _ heq => hu heq

theorem readPieces_hex {n : Nat} (hn : n < 65536) (gs : List Glyph) :
    readPieces (some '\\' :: some 'u' :: ((hex 4 n).map some ++ gs)) =
      (readPieces gs).map fun (ps, rest) => (.unit n :: ps, rest) := by
  obtain ⟨a, b, c, d, hhex, hunit⟩ : ∃ a b c d, hex 4 n = [a, b, c, d] ∧
      unit? (some a) (some b) (some c) (some d) = some n := by
    refine ⟨_, _, _, _, rfl, ?_⟩
    change ((hex 4 n).mapM hexValue?).bind (fun ds => some (ofDigits 16 ds)) = some n
    rw [mapM_hexValue?_hex, Option.bind_some, ofDigits_reverse, ofLowDigits_lowDigits]
    exact congrArg some (Nat.mod_eq_of_lt hn)
  rw [hhex]
  simp only [List.map_cons, List.map_nil, List.cons_append, List.nil_append, readPieces, hunit]
  rw [Option.map_eq_bind]
  rfl

theorem readPieces_char {c : Char} (hquote : c ≠ '"') (hslash : c ≠ '\\') (hprint : 32 ≤ c.toNat)
    (gs : List Glyph) :
    readPieces (some c :: gs) = (readPieces gs).map fun (ps, rest) => (.char c :: ps, rest) := by
  rw [readPieces, if_neg, Option.map_eq_bind]
  · rfl
  · exact not_or.2 ⟨hslash, Nat.not_lt.2 hprint⟩
  · exact hquote
  · exact fun _ _ _ _ _ _ heq => hslash heq
  · exact fun _ _ _ heq => hslash heq

/-- What a character is read as inside a string: itself, or a unit if its escape has no letter. -/
def pieceOf (c : Char) : Piece :=
  if 32 ≤ c.toNat ∨ c = '\n' ∨ c = '\r' ∨ c = '\t' ∨ c = '\x08' ∨ c = '\x0c' then .char c
  else .unit c.toNat

/-- A character inside a string is read as its piece. -/
theorem readPieces_escape (c : Char) (gs : List Glyph) :
    readPieces ((escape c).map some ++ gs) =
      (readPieces gs).map fun (ps, rest) => (pieceOf c :: ps, rest) := by
  rw [escape]
  -- The quote, the backslash and five control characters have a short escape.
  iterate 7
    split
    · next h => subst h; exact readPieces_short rfl gs
  split
  · next hcontrol =>
    have hpiece : pieceOf c = .unit c.toNat := by
      rw [pieceOf, if_neg]
      simp_all
    rw [hpiece]
    exact readPieces_hex (by omega) gs
  · next hquote hslash _ _ _ _ _ hprint =>
    rw [pieceOf, if_pos (.inl (by omega))]
    exact readPieces_char hquote hslash (by omega) gs

/-- A unit below the surrogates spells a character by itself. -/
theorem spell_unit {n : Nat} (hn : n < 0xD800) (ps : List Piece) :
    spell (.unit n :: ps) = (spell ps).map (Char.ofNat n :: ·) := by
  have hhigh : isHighSurrogate n = false := by
    simp [isHighSurrogate]
    omega
  have hlow : isLowSurrogate n = false := by
    simp [isLowSurrogate]
    omega
  cases ps with
  | nil => simp [spell, hhigh, hlow]
  | cons p ps => cases p <;> simp [spell, hhigh, hlow]

/-- The pieces of some characters spell them. -/
theorem spell_map_pieceOf (cs : List Char) : spell (cs.map pieceOf) = some cs := by
  induction cs with
  | nil => rfl
  | cons c cs ih =>
    rw [List.map_cons, pieceOf]
    split
    · rw [spell, ih, Option.map_some]
    · next hcontrol =>
      have hlt : c.toNat < 32 := Nat.not_le.1 fun h => hcontrol (.inl h)
      rw [spell_unit (by omega), ih, Option.map_some, Char.ofNat_toNat]

/-- The characters of a text are read up to the closing quote. -/
theorem readPieces_flatMap (cs : List Char) (gs : List Glyph) :
    readPieces ((cs.flatMap escape).map some ++ some '"' :: gs) = some (cs.map pieceOf, gs) := by
  induction cs with
  | nil => rfl
  | cons c cs ih =>
    rw [List.flatMap_cons, List.map_append, List.append_assoc, readPieces_escape, ih]
    rfl

/-- A string is read back after its opening quote, whether it is text or not. -/
theorem readString_render (s : Option String) :
    ∃ cs, renderString s = '"' :: cs ∧
      ∀ gs, readString (cs.map some ++ gs) = some (s, gs) := by
  cases s with
  | none => exact ⟨"\\ud800\"".toList, rfl, fun _ => rfl⟩
  | some s =>
    refine ⟨s.toList.flatMap escape ++ ['"'], rfl, fun gs => ?_⟩
    have hpieces := readPieces_flatMap s.toList gs
    rw [List.map_append, List.append_assoc]
    change readString ((s.toList.flatMap escape).map some ++ some '"' :: gs) = _
    simp only [readString, hpieces, Option.map_some, spell_map_pieceOf, String.ofList_toList]

/-! ## Numbers -/

/-- What closes a document: the end, a comma or a bracket. -/
inductive Closes : List Glyph → Prop where
  | nil : Closes []
  | comma (gs : List Glyph) : Closes (some ',' :: gs)
  | bracket (gs : List Glyph) : Closes (some ']' :: gs)
  | brace (gs : List Glyph) : Closes (some '\x7d' :: gs)

/-- The glyphs do not go on with a digit. -/
def EndsDigits (gs : List Glyph) : Prop := ∀ c, some c ∈ gs.head? → c.isDigit = false

theorem endsDigits_cons {c : Char} (h : c.isDigit = false) (gs : List Glyph) :
    EndsDigits (some c :: gs) := by
  rintro d ⟨⟩
  exact h

theorem Closes.endsDigits {gs : List Glyph} (h : Closes gs) : EndsDigits gs := by
  cases h with
  | nil => exact nofun
  | comma | bracket | brace => exact endsDigits_cons (by decide) _

/-- A run of digits is read where something else follows. -/
theorem readDigits_append {ds : List Char} (h : ∀ c ∈ ds, c.isDigit = true) {gs : List Glyph}
    (hends : EndsDigits gs) : readDigits (ds.map some ++ gs) = (ds, gs) := by
  induction ds with
  | nil =>
    rw [List.map_nil, List.nil_append]
    match gs with
    | [] => rfl
    | none :: gs => rfl
    | some c :: gs => rw [readDigits, if_neg (by rw [hends c rfl]; exact Bool.false_ne_true)]
  | cons d ds ih =>
    rw [List.map_cons, List.cons_append, readDigits, if_pos (h d (List.mem_cons_self ..)),
      ih fun c hc => h c (List.mem_cons_of_mem _ hc)]

theorem readSomeDigits_toDigits (n : Nat) {gs : List Glyph} (hends : EndsDigits gs) :
    readSomeDigits ((Nat.toDigits 10 n).map some ++ gs) = some (Nat.toDigits 10 n, gs) := by
  rw [readSomeDigits, readDigits_append (fun _ => isDigit_of_mem_toDigits) hends]
  exact if_neg (by simp [Nat.toDigits_ne_nil])

theorem readWhole_toDigits (n : Nat) {gs : List Glyph} (hends : EndsDigits gs) :
    readWhole ((Nat.toDigits 10 n).map some ++ gs) = some (Nat.toDigits 10 n, gs) := by
  have hplain : ¬ ((Nat.toDigits 10 n).head? = some '0' ∧ (Nat.toDigits 10 n).length ≠ 1) := by
    rintro ⟨hhead, hlength⟩
    obtain rfl := eq_zero_of_head?_toDigits hhead
    exact hlength rfl
  rw [readWhole, readSomeDigits_toDigits n hends, Option.bind_eq_bind, Option.bind_some]
  exact if_neg hplain

theorem readPoint_of_closes {gs : List Glyph} (h : Closes gs) : readPoint gs = some (none, gs) := by
  cases h <;> rfl

theorem readExponent_of_closes {gs : List Glyph} (h : Closes gs) :
    readExponent gs = some (none, gs) := by
  cases h <;> rfl

/-- A number of any width starts with a digit. -/
theorem exists_toDigits (n : Nat) :
    ∃ d ds, Nat.toDigits 10 n = d :: ds ∧ d.isDigit = true := by
  obtain ⟨d, ds, hds⟩ := List.exists_cons_of_ne_nil (Nat.toDigits_ne_nil (n := n) (b := 10))
  exact ⟨d, ds, hds, isDigit_of_mem_toDigits (hds ▸ List.mem_cons_self ..)⟩

/-- An exponent is read back. -/
theorem readExponent_renderInt (i : Int) {gs : List Glyph} (h : Closes gs) :
    readExponent (some 'e' :: ((renderInt i).map some ++ gs)) = some (some i, gs) := by
  have hread := readSomeDigits_toDigits i.natAbs h.endsDigits
  have hvalue : readExponent.value (Nat.toDigits 10 i.natAbs) = i.natAbs := by
    rw [readExponent.value, decimal?_toDigits, Option.getD_some]
  rw [renderInt]
  split
  · next hneg =>
    rw [List.map_cons, List.cons_append, readExponent]
    simp only [hread, Option.map_some, hvalue, Int.ofNat_natAbs_of_nonpos (Int.le_of_lt hneg),
      Int.neg_neg]
  · next hpos =>
    obtain ⟨d, ds, hds, hd⟩ := exists_toDigits i.natAbs
    rw [hds, List.map_cons, List.cons_append] at hread ⊢
    rw [readExponent, hread]
    · simp only [Option.map_some, ← hds, hvalue, Int.natAbs_of_nonneg (Int.not_lt.1 hpos)]
    · rintro _ ⟨⟩
      cases hd
    · rintro _ ⟨⟩
      cases hd

theorem readUnsigned_toDigits (negative : Bool) (n : Nat) {gs : List Glyph} (h : Closes gs) :
    readUnsigned negative ((Nat.toDigits 10 n).map some ++ gs) =
      some (.number (makeNumber negative (Nat.toDigits 10 n) none none), gs) := by
  rw [readUnsigned, readWhole_toDigits n h.endsDigits]
  simp only [Option.bind_eq_bind, Option.bind_some, readPoint_of_closes h,
    readExponent_of_closes h]
  rfl

theorem readUnsigned_exponent (negative : Bool) (n : Nat) (i : Int) {gs : List Glyph}
    (h : Closes gs) :
    readUnsigned negative
        ((Nat.toDigits 10 n).map some ++ some 'e' :: ((renderInt i).map some ++ gs)) =
      some (.number (.decimal negative n i), gs) := by
  have hpoint : ∀ gs, readPoint (some 'e' :: gs) = some (none, some 'e' :: gs) := fun _ => rfl
  rw [readUnsigned, readWhole_toDigits n (endsDigits_cons (by decide) _)]
  simp only [Option.bind_eq_bind, Option.bind_some, hpoint, readExponent_renderInt i h]
  simp [makeNumber]

theorem skipBlanks_digit {c : Char} (h : c.isDigit = true) (gs : List Glyph) :
    skipBlanks (some c :: gs) = some c :: gs := by
  rw [skipBlanks.eq_def]
  split <;> simp_all

theorem readValue_digit {c : Char} (h : c.isDigit = true) (fuel : Nat) (gs : List Glyph) :
    readValue (fuel + 1) (some c :: gs) = readUnsigned false (some c :: gs) := by
  rw [readValue, skipBlanks_digit h]
  split <;> simp_all

theorem readValue_toDigits (n fuel : Nat) (gs : List Glyph) :
    readValue (fuel + 1) ((Nat.toDigits 10 n).map some ++ gs) =
      readUnsigned false ((Nat.toDigits 10 n).map some ++ gs) := by
  obtain ⟨d, ds, hds, hd⟩ := exists_toDigits n
  rw [hds]
  exact readValue_digit hd fuel _

/-- A number is read back. -/
theorem readValue_renderNumber (n : Number) (fuel : Nat) {gs : List Glyph} (h : Closes gs) :
    readValue (fuel + 1) ((renderNumber n).map some ++ gs) = some (.number n, gs) := by
  have hminus : ∀ gs, readValue (fuel + 1) (some '-' :: gs) = readUnsigned true gs := fun _ => rfl
  cases n with
  | integer i =>
    rw [renderNumber, renderInt]
    split
    · next hneg =>
      have hnumber : makeNumber true (Nat.toDigits 10 i.natAbs) none none = .integer i := by
        simp only [makeNumber, Option.getD_none, List.append_nil, decimal?_toDigits,
          Option.getD_some, if_true]
        rw [if_neg (by omega), Int.ofNat_natAbs_of_nonpos (Int.le_of_lt hneg), Int.neg_neg]
      rw [List.map_cons, List.cons_append, hminus, readUnsigned_toDigits true _ h, hnumber]
    · next hpos =>
      have hnumber : makeNumber false (Nat.toDigits 10 i.natAbs) none none = .integer i := by
        simp only [makeNumber, Option.getD_none, List.append_nil, decimal?_toDigits,
          Option.getD_some, Bool.false_eq_true, if_false]
        rw [Int.natAbs_of_nonneg (Int.not_lt.1 hpos)]
      rw [readValue_toDigits, readUnsigned_toDigits false _ h, hnumber]
  | decimal negative digits exponent =>
    have hnumber := readUnsigned_exponent negative digits exponent h
    have htext : (renderNumber (.decimal negative digits exponent)).map some ++ gs =
        (if negative then [some '-'] else []) ++ ((Nat.toDigits 10 digits).map some ++
          some 'e' :: ((renderInt exponent).map some ++ gs)) := by
      cases negative <;> simp [renderNumber]
    rw [htext]
    cases negative with
    | false => exact (readValue_toDigits digits fuel _).trans hnumber
    | true => exact (hminus _).trans hnumber

/-! ## Documents -/

/-- A document starts neither with a blank nor with a closing bracket. -/
theorem exists_render (j : Json) :
    ∃ c cs, render j = c :: cs ∧ c ≠ ']' ∧ ∀ gs, skipBlanks (some c :: gs) = some c :: gs := by
  have ofDigits : ∀ n cs, ∃ c cs', Nat.toDigits 10 n ++ cs = c :: cs' ∧ c ≠ ']' ∧
      ∀ gs, skipBlanks (some c :: gs) = some c :: gs := by
    intro n cs
    obtain ⟨d, ds, hds, hd⟩ := exists_toDigits n
    refine ⟨d, ds ++ cs, by rw [hds]; rfl, ?_, skipBlanks_digit hd⟩
    rintro rfl
    cases hd
  cases j with
  | null => exact ⟨_, _, rfl, by decide, fun _ => rfl⟩
  | bool b => cases b <;> exact ⟨_, _, rfl, by decide, fun _ => rfl⟩
  | number n =>
    cases n with
    | integer i =>
      rw [render, renderNumber, renderInt]
      split
      · exact ⟨_, _, rfl, by decide, fun _ => rfl⟩
      · have hdigits := ofDigits i.natAbs []
        rwa [List.append_nil] at hdigits
    | decimal negative digits exponent =>
      rw [render, renderNumber]
      cases negative with
      | false => exact ofDigits digits _
      | true => exact ⟨_, _, rfl, by decide, fun _ => rfl⟩
  | string s =>
    obtain ⟨cs, hcs, -⟩ := readString_render s
    rw [render, hcs]
    exact ⟨_, _, rfl, by decide, fun _ => rfl⟩
  | array es => cases es <;> exact ⟨_, _, rfl, by decide, fun _ => rfl⟩
  | object ms =>
    match ms with
    | [] => exact ⟨_, _, rfl, by decide, fun _ => rfl⟩
    | (k, v) :: ms => exact ⟨_, _, rfl, by decide, fun _ => rfl⟩

theorem renderElements_cons (e : Json) (es : List Json) :
    renderElements (e :: es) = ',' :: (render e ++ renderElements es) := rfl

theorem renderMembers_cons (k : Option String) (v : Json) (ms : List (Option String × Json)) :
    renderMembers ((k, v) :: ms) =
      ',' :: (renderString k ++ ':' :: (render v ++ renderMembers ms)) := by
  simp [renderMembers]

theorem render_array_cons (e : Json) (es : List Json) :
    render (.array (e :: es)) = '[' :: (render e ++ renderElements es) := rfl

theorem render_object_cons (k : Option String) (v : Json) (ms : List (Option String × Json)) :
    render (.object ((k, v) :: ms)) =
      '\x7b' :: (renderString k ++ ':' :: (render v ++ renderMembers ms)) := by
  simp [render]

theorem closes_renderElements (es : List Json) (gs : List Glyph) :
    Closes ((renderElements es).map some ++ gs) := by
  cases es with
  | nil => exact .bracket gs
  | cons e es => exact .comma _

theorem closes_renderMembers (ms : List (Option String × Json)) (gs : List Glyph) :
    Closes ((renderMembers ms).map some ++ gs) := by
  match ms with
  | [] => exact .brace gs
  | (k, v) :: ms => exact .comma _

/-- An array that does not close at once has elements. -/
theorem readValue_elements {c : Char} (hc : c ≠ ']') (fuel : Nat) {gs : List Glyph}
    (hskip : skipBlanks (some c :: gs) = some c :: gs) :
    readValue (fuel + 1) (some '[' :: some c :: gs) =
      (readElements fuel (some c :: gs)).map fun (es, rest) => (Json.array es, rest) := by
  have hbracket : skipBlanks (some '[' :: some c :: gs) = some '[' :: some c :: gs := rfl
  simp only [readValue, hbracket, hskip]
  split
  · next heq =>
    cases heq
    exact absurd rfl hc
  · rfl

/-! ## Steps of the reader -/

/-- So many steps are enough for a document that is no longer. -/
def ReadsValue (fuel : Nat) : Prop :=
  ∀ j gs, (render j).length ≤ fuel → Closes gs →
    readValue fuel ((render j).map some ++ gs) = some (j, gs)

/-- So many steps are enough for the elements of an array. -/
def ReadsElements (fuel : Nat) : Prop :=
  ∀ e es gs, (render e ++ renderElements es).length ≤ fuel →
    readElements fuel ((render e ++ renderElements es).map some ++ gs) = some (e :: es, gs)

/-- So many steps are enough for the members of an object. -/
def ReadsMembers (fuel : Nat) : Prop :=
  ∀ k v ms gs, (renderString k ++ ':' :: (render v ++ renderMembers ms)).length ≤ fuel →
    readMembers fuel ((renderString k ++ ':' :: (render v ++ renderMembers ms)).map some ++ gs) =
      some ((k, v) :: ms, gs)

theorem length_render_pos (j : Json) : 0 < (render j).length := by
  obtain ⟨c, cs, hcs, -⟩ := exists_render j
  rw [hcs]
  exact Nat.succ_pos _

variable {fuel : Nat}

/-- One more step is enough for a document whose parts are read. -/
theorem readsValue_succ (helements : ReadsElements fuel) (hmembers : ReadsMembers fuel) :
    ReadsValue (fuel + 1) := by
  intro j gs hfuel h
  cases j with
  | null => rfl
  | bool b => cases b <;> rfl
  | number n => exact readValue_renderNumber n fuel h
  | string s =>
    obtain ⟨cs, hcs, hread⟩ := readString_render s
    rw [render, hcs]
    change (readString (cs.map some ++ gs)).map (fun r => (Json.string r.1, r.2)) = _
    rw [hread]
    rfl
  | array es =>
    cases es with
    | nil => rfl
    | cons e es =>
      obtain ⟨c, cs, hcs, hc, hskip⟩ := exists_render e
      rw [render_array_cons, List.length_cons] at hfuel
      have hes := helements e es gs (Nat.le_of_succ_le_succ hfuel)
      rw [render_array_cons]
      rw [hcs] at hes ⊢
      exact (readValue_elements hc fuel (hskip _)).trans (congrArg (Option.map _) hes)
  | object ms =>
    cases ms with
    | nil => rfl
    | cons m ms =>
      obtain ⟨k, v⟩ := m
      obtain ⟨cs, hcs, -⟩ := readString_render k
      rw [render_object_cons, List.length_cons] at hfuel
      have hms := hmembers k v ms gs (Nat.le_of_succ_le_succ hfuel)
      rw [render_object_cons]
      rw [hcs] at hms ⊢
      exact congrArg (Option.map fun r => (Json.object r.1, r.2)) hms

/-- One more step is enough for elements if the first and the others are read. -/
theorem readsElements_succ (hvalue : ReadsValue fuel) (helements : ReadsElements fuel) :
    ReadsElements (fuel + 1) := by
  intro e es gs hfuel
  have hpos := length_render_pos e
  rw [List.length_append] at hfuel
  cases es with
  | nil =>
    rw [renderElements, List.length_singleton] at hfuel
    have he := hvalue e _ (by omega) (closes_renderElements [] gs)
    rw [List.map_append, List.append_assoc, readElements, he]
    rfl
  | cons e' es =>
    rw [renderElements_cons, List.length_cons] at hfuel
    have he := hvalue e _ (by omega) (closes_renderElements (e' :: es) gs)
    have hes := helements e' es gs (by omega)
    rw [List.map_append, List.append_assoc, readElements, he]
    exact congrArg (Option.map fun (es, rest) => (e :: es, rest)) hes

/-- After its value, a member is the last one, or others follow. -/
theorem readMembers_member {k : Option String} {v : Json} {cs : List Char} {gs rest : List Glyph}
    (hk : ∀ gs, readString (cs.map some ++ gs) = some (k, gs))
    (hv : readValue fuel gs = some (v, rest)) :
    readMembers (fuel + 1) (some '"' :: (cs.map some ++ some ':' :: gs)) =
      match skipBlanks rest with
      | some ',' :: gs => (readMembers fuel gs).map fun (ms, rest) => ((k, v) :: ms, rest)
      | some '\x7d' :: gs => some ([(k, v)], gs)
      | _ => none := by
  have hquote : ∀ gs, skipBlanks (some '"' :: gs) = some '"' :: gs := fun _ => rfl
  have hcolon : readWord [':'] (skipBlanks (some ':' :: gs)) = some gs := rfl
  rw [readMembers, hquote]
  change (readString (cs.map some ++ some ':' :: gs)).bind _ = _
  rw [hk, Option.bind_some]
  change (readWord [':'] (skipBlanks (some ':' :: gs))).bind _ = _
  rw [hcolon, Option.bind_some]
  change (readValue fuel gs).bind _ = _
  rw [hv]
  rfl

/-- One more step is enough for members if the first value and the other members are read. -/
theorem readsMembers_succ (hvalue : ReadsValue fuel) (hmembers : ReadsMembers fuel) :
    ReadsMembers (fuel + 1) := by
  intro k v ms gs hfuel
  obtain ⟨cs, hcs, hk⟩ := readString_render k
  have hpos := length_render_pos v
  rw [hcs, List.length_append, List.length_cons, List.length_cons, List.length_append] at hfuel
  have hv := hvalue v _ (by omega) (closes_renderMembers ms gs)
  have hmember := readMembers_member hk hv
  have htext : (renderString k ++ ':' :: (render v ++ renderMembers ms)).map some ++ gs =
      some '"' :: (cs.map some ++ some ':' ::
        ((render v).map some ++ ((renderMembers ms).map some ++ gs))) := by
    simp [hcs]
  rw [htext, hmember]
  cases ms with
  | nil => rfl
  | cons m ms =>
    obtain ⟨k', v'⟩ := m
    rw [renderMembers_cons, List.length_cons] at hfuel
    have hms := hmembers k' v' ms gs (by omega)
    rw [renderMembers_cons]
    exact congrArg (Option.map fun (ms, rest) => ((k, v) :: ms, rest)) hms

/-- Everything is read in as many steps as it has characters. -/
theorem reads (fuel : Nat) : ReadsValue fuel ∧ ReadsElements fuel ∧ ReadsMembers fuel := by
  induction fuel with
  | zero =>
    refine ⟨fun j gs hfuel => ?_, fun e es gs hfuel => ?_, fun k v ms gs hfuel => ?_⟩
    · have := length_render_pos j
      omega
    · have := length_render_pos e
      rw [List.length_append] at hfuel
      omega
    · simp at hfuel
  | succ fuel ih =>
    obtain ⟨hvalue, helements, hmembers⟩ := ih
    exact ⟨readsValue_succ helements hmembers, readsElements_succ hvalue helements,
      readsMembers_succ hvalue hmembers⟩

/-! ## Texts -/

theorem ofGlyphs?_render (j : Json) : ofGlyphs? ((render j).map some) = some j := by
  have hread := (reads (((render j).map some).length + 1)).1 j [] (by simp) .nil
  rw [List.append_nil] at hread
  rw [ofGlyphs?, hread]
  rfl

@[simp] theorem ofText?_toText (j : Json) : ofText? j.toText = some j := by
  rw [ofText?, toText, String.toList_ofList, ofGlyphs?_render]

@[simp] theorem ofBytes?_toUTF8 (j : Json) : ofBytes? j.toText.toUTF8 = some j := by
  have htext : String.fromUTF8? j.toText.toUTF8 = some j.toText := dif_pos j.toText.isValidUTF8
  rw [ofBytes?, htext]
  exact ofText?_toText j

end Json
end Fulfilment
