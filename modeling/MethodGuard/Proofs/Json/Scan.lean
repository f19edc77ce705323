/-
# The tokens of written data

What is written for JSON data is scanned back into the tokens one expects, `Json.tokens`, whatever
text follows (`Json.scan_write`).  Two things need care.  A string is scanned piece by piece, and
its pieces are not always its characters: a control character without a letter of its own is
written as a UTF-16 unit (`Token.scanString_writeString`, `Written.text?_pieces`).  And a number
ends only where something follows that cannot be part of it, which is what `EndsNumber` is for; the
digits written for an integer mean that integer as long as 64 bits hold it (`meaning?_literal`).

Floats are left out of account: `Exact` data has none.
-/
import MethodGuard.Json.Token

namespace MethodGuard

/-! ## 1. Strings -/

namespace Json

/-- What is read of a character inside a string. -/
def piece (c : Char) : Piece :=
  if c.toNat < 32 ∧ c ∉ ['\n', '\r', '\t', '\x08', '\x0c'] then .unit c.toNat else .char c

/-- What is read of a string. -/
def pieces (s : String) : List Piece := s.toList.map piece

/-- The three ways of writing a character inside a string, and what is read of each. -/
inductive Escaped (c : Char) : List Char → Piece → Prop where
  | letter {e : Char} : e ≠ 'u' → Token.shortEscape? e = some c → Escaped c ['\\', e] (.char c)
  | unit : c.toNat < 32 → Escaped c ('\\' :: 'u' :: Hexadecimal.padded 4 c.toNat) (.unit c.toNat)
  | plain : c ≠ '"' → c ≠ '\\' → 32 ≤ c.toNat → Escaped c [c] (.char c)

theorem escaped (c : Char) : Escaped c (escape c) (piece c) := by
  have hletter {e : Char} (he : e ≠ 'u') (h : Token.shortEscape? e = some c)
      (hpiece : piece c = .char c) : Escaped c ['\\', e] (piece c) := by
    rw [hpiece]
    exact .letter he h
  unfold escape
  -- seven characters have an escape with a letter
  iterate 7
    split
    · exact hletter (by decide) (by subst c; rfl) (by subst c; rfl)
  split
  · rename_i hcontrol
    have hpiece : piece c = .unit c.toNat := if_pos ⟨hcontrol, by simp_all⟩
    rw [hpiece]
    exact .unit hcontrol
  · rename_i hquote hbackslash _ _ _ _ _ hcontrol
    have hpiece : piece c = .char c := if_neg fun h => hcontrol h.1
    rw [hpiece]
    exact .plain hquote hbackslash (Nat.le_of_not_lt hcontrol)

end Json

namespace Token

/-- The digits of the unit that a control character is. -/
theorem padded_four : ∀ n < 32, Hexadecimal.padded 4 n =
    ['0', '0', Hexadecimal.digit (n / 16), Hexadecimal.digit (n % 16)] := by
  decide

theorem unit?_digits : ∀ n < 32,
    unit? '0' '0' (Hexadecimal.digit (n / 16)) (Hexadecimal.digit (n % 16)) = some n := by
  decide

/-- One character of a string is read as one piece. -/
theorem scanString_escape_append (c : Char) (rest : List Char) :
    scanString (Json.escape c ++ rest) =
      (scanString rest).map fun found => (Json.piece c :: found.1, found.2) := by
  have h := Json.escaped c
  revert h
  generalize Json.escape c = text
  generalize Json.piece c = piece
  intro h
  cases h with
  | @letter e he hletter =>
    rw [List.cons_append, List.cons_append, List.nil_append, scanString, hletter]
    simp [he]
  | unit hcontrol =>
    rw [padded_four _ hcontrol]
    simp only [List.cons_append, List.nil_append]
    rw [scanString, unit?_digits _ hcontrol]
  | plain hquote hbackslash hcontrol =>
    rw [List.cons_append, List.nil_append, scanString, if_neg (Nat.not_lt.mpr hcontrol)]
    · exact hquote
    · simp [hbackslash]
    · simp [hbackslash]

theorem scanString_flatMap_escape (cs rest : List Char) :
    scanString (cs.flatMap Json.escape ++ '"' :: rest) = some (cs.map Json.piece, rest) := by
  induction cs with
  | nil => rw [List.flatMap_nil, List.nil_append, scanString, List.map_nil]
  | cons c cs ih =>
    rw [List.flatMap_cons, List.append_assoc, scanString_escape_append, ih, Option.map_some,
      List.map_cons]

end Token

/-- **The pieces read of a string mean the string.** -/
theorem Written.text?_pieces (s : String) : text? (Json.pieces s) = some s := by
  have hcharacters : ∀ cs : List Char, characters? (cs.map Json.piece) = some cs := by
    intro cs
    induction cs with
    | nil => rfl
    | cons c cs ih =>
      rw [List.map_cons, Json.piece]
      split
      · rename_i hcontrol
        have hhigh : isHigh c.toNat = false := by simp [isHigh]; omega
        have hlow : isLow c.toNat = false := by simp [isLow]; omega
        unfold characters?
        simp [hhigh, hlow, ih]
      · rw [characters?, ih, Option.map_some]
  rw [text?, Json.pieces, hcharacters, Option.map_some, String.ofList_toList]

/-! ## 2. Integers -/

namespace Json

/-- The digits of a number. -/
def digits (n : Nat) : List Nat := (Nat.toDigits 10 n).map Token.digitValue

/-- What is read of an integer. -/
def literal (n : Int) : NumberLiteral := ⟨decide (n < 0), digits n.natAbs, none, none⟩

/-- Text that does not go on with a number: none, or what follows a value in a container. -/
def EndsNumber : List Char → Prop
  | [] => True
  | c :: _ => c = ',' ∨ c = ']' ∨ c = '\x7d'

end Json

namespace Token

open Json (EndsNumber)

variable {rest : List Char}

/-- The digits of a number start with a zero only if it is zero. -/
theorem exists_toDigits_eq_cons (n : Nat) :
    ∃ c cs, Nat.toDigits 10 n = c :: cs ∧ (n ≠ 0 → c ≠ '0') := by
  induction n using Nat.strongRecOn with
  | ind n ih =>
    by_cases hn : n < 10
    · have hdigit : ∀ n < 10, n ≠ 0 → n.digitChar ≠ '0' := by decide
      exact ⟨n.digitChar, [], Nat.toDigits_of_lt_base hn, hdigit n hn⟩
    · obtain ⟨c, cs, hcs, hc⟩ := ih (n / 10) (by omega)
      refine ⟨c, cs ++ [(n % 10).digitChar], ?_, fun _ => hc (by omega)⟩
      rw [Nat.toDigits_of_base_le (by decide) (Nat.not_lt.mp hn), hcs, List.cons_append]

theorem isDigit_of_mem_toDigits {n : Nat} {c : Char} (h : c ∈ Nat.toDigits 10 n) :
    c.isDigit = true :=
  Nat.isDigit_of_mem_toDigits (by decide) (by decide) h

theorem digits_of_endsNumber (h : EndsNumber rest) :
    rest.takeWhile Char.isDigit = [] ∧ rest.dropWhile Char.isDigit = rest := by
  cases rest with
  | nil => simp
  | cons c rest => rcases h with rfl | rfl | rfl <;> simp [Char.isDigit]

theorem scanWhole_toDigits (n : Nat) (h : EndsNumber rest) :
    scanWhole (Nat.toDigits 10 n ++ rest) = some (Json.digits n, rest) := by
  have hfound : Token.digits (Nat.toDigits 10 n ++ rest) = (Json.digits n, rest) := by
    have hdigits : ∀ c ∈ Nat.toDigits 10 n, c.isDigit = true := fun c => isDigit_of_mem_toDigits
    rw [Token.digits, List.takeWhile_append_of_pos hdigits, List.dropWhile_append_of_pos hdigits,
      (digits_of_endsNumber h).1, (digits_of_endsNumber h).2, List.append_nil]
    rfl
  obtain ⟨c, cs, hcs, hc⟩ := exists_toDigits_eq_cons n
  by_cases hn : n = 0
  · subst hn
    rfl
  · have hsome : (Json.digits n).isEmpty = false := by rw [Json.digits, hcs]; rfl
    rw [hcs, List.cons_append, scanWhole, ← List.cons_append, ← hcs, someDigits?, hfound]
    · simp [hsome]
    · exact fun _ heq => hc hn (List.cons.inj heq).1

theorem scanMagnitude_toDigits (negative : Bool) (n : Nat) (h : EndsNumber rest) :
    scanMagnitude negative (Nat.toDigits 10 n ++ rest) =
      some (⟨negative, Json.digits n, none, none⟩, rest) := by
  have hfraction : scanFraction rest = some (none, rest) := by
    cases rest with
    | nil => rfl
    | cons c rest => rcases h with rfl | rfl | rfl <;> rfl
  have hexponent : scanExponent rest = some (none, rest) := by
    cases rest with
    | nil => rfl
    | cons c rest => rcases h with rfl | rfl | rfl <;> rfl
  rw [scanMagnitude, scanWhole_toDigits n h]
  simp only [hfraction, hexponent]

/-- What is written for an integer: a sign, if it is negative, and digits. -/
theorem toList_toString_int (n : Int) : (toString n).toList =
    (if n < 0 then ['-'] else []) ++ Nat.toDigits 10 n.natAbs := by
  rw [Int.toString_eq_repr, Int.repr_eq_if]
  by_cases hn : 0 ≤ n
  · rw [if_pos hn, if_neg (Int.not_lt.mpr hn), Nat.toList_repr, List.nil_append]
    congr 1
    omega
  · rw [if_neg hn, if_pos (Int.not_le.mp hn), String.toList_append, Nat.toList_repr]
    congr 2
    omega

/-- **The text of an integer is read as its literal.** -/
theorem scanNumber_toString (n : Int) (h : EndsNumber rest) :
    scanNumber ((toString n).toList ++ rest) = some (Json.literal n, rest) := by
  rw [toList_toString_int, Json.literal]
  by_cases hn : n < 0
  · rw [if_pos hn, decide_eq_true hn]
    exact scanMagnitude_toDigits true n.natAbs h
  · obtain ⟨c, cs, hcs, -⟩ := exists_toDigits_eq_cons n.natAbs
    have hminus : c ≠ '-' := by
      rintro rfl
      have hdigit := isDigit_of_mem_toDigits (n := n.natAbs) (c := '-') (by simp [hcs])
      cases hdigit
    rw [if_neg hn, decide_eq_false hn, List.nil_append, hcs, List.cons_append, scanNumber,
      ← List.cons_append, ← hcs, scanMagnitude_toDigits false n.natAbs h]
    exact fun _ heq => hminus (List.cons.inj heq).1

end Token

namespace NumberLiteral

/-- A significand takes in all digits that it has room for. -/
theorem accumulate_eq {digits : List Nat} {s : Nat}
    (h : digits.foldl (fun n d => n * 10 + d) s < UInt64.size) :
    accumulate s digits = (digits.foldl (fun n d => n * 10 + d) s, 0) := by
  induction digits generalizing s with
  | nil => rfl
  | cons d digits ih =>
    have hle : ∀ (digits : List Nat) (s : Nat), s ≤ digits.foldl (fun n d => n * 10 + d) s := by
      intro digits
      induction digits with
      | nil => exact fun _ => Nat.le_refl _
      | cons d digits ih =>
        intro s
        have hstep : s ≤ s * 10 + d := by omega
        exact Nat.le_trans hstep (ih (s * 10 + d))
    have hroom : s * 10 + d < UInt64.size := Nat.lt_of_le_of_lt (hle digits (s * 10 + d)) h
    rw [accumulate, if_pos hroom, ih h, List.foldl_cons]

theorem accumulate_digits {n : Nat} (h : n < UInt64.size) :
    accumulate 0 (Json.digits n) = (n, 0) := by
  have hvalue : (Json.digits n).foldl (fun n d => n * 10 + d) 0 = n := by
    have hfold : (Json.digits n).foldl (fun n d => n * 10 + d) 0 =
        Nat.ofDigitChars 10 (Nat.toDigits 10 n) 0 := by
      rw [Json.digits, List.foldl_map, Nat.ofDigitChars]
      congr 1
      funext s c
      rw [Nat.mul_comm]
      rfl
    rw [hfold, Nat.ofDigitChars_toDigits (by decide) (by decide)]
  rw [accumulate_eq (hvalue.symm ▸ h), hvalue]

/-- **A literal means its integer**, if 64 bits hold it. -/
theorem meaning?_literal {n : Int} (hmin : -0x8000000000000000 ≤ n)
    (hmax : n < 0x10000000000000000) : (Json.literal n).meaning? = some (.integer n) := by
  have hsize : n.natAbs < UInt64.size := by
    have hsize : UInt64.size = 0x10000000000000000 := rfl
    omega
  have hwhole : (Json.literal n).isWhole = true := rfl
  have hdigits : accumulate 0 (Json.literal n).whole = (n.natAbs, 0) := accumulate_digits hsize
  rw [meaning?, hdigits]
  simp only [hwhole, Bool.true_and, beq_self_eq_true, if_true]
  by_cases hn : n < 0
  · have hnegative : (Json.literal n).negative = true := decide_eq_true hn
    have hvalue : -(n.natAbs : Int) = n := by omega
    have hroom : (decide (n.natAbs = 0) || decide (0x8000000000000000 < n.natAbs)) = false := by
      simp
      omega
    rw [if_pos hnegative, hroom, hvalue]
    rfl
  · have hnegative : ¬ (Json.literal n).negative = true := by simpa [Json.literal] using hn
    have hvalue : (n.natAbs : Int) = n := by omega
    rw [if_neg hnegative, hvalue]

end NumberLiteral

/-! ## 3. All tokens -/

namespace Token

variable {c : Char} {cs rest : List Char}

/-- A text whose first character starts neither a word nor a blank starts with a mark, a string or
a number. -/
theorem scan_cons (hword : c ∉ ['n', 't', 'f']) (hblank : isBlank c = false) :
    scan (c :: cs) =
      match mark? c with
      | some mark => (scan cs).map (mark :: ·)
      | none =>
        if c = '"' then (scanString cs).bind fun found =>
          (scan found.2).map (.string found.1 :: ·)
        else (scanNumber (c :: cs)).bind fun found =>
          (scan found.2).map (.number found.1 :: ·) := by
  simp only [List.mem_cons, List.not_mem_nil, or_false, not_or] at hword
  rw [scan, hblank]
  · simp only [Bool.false_eq_true, if_false]
    cases mark? c with
    | some mark => rfl
    | none =>
      simp only []
      split
      · split
        · rename_i hfound
          rw [hfound, Option.bind_some]
        · rename_i hnone
          rw [hnone, Option.bind_none]
      · split
        · rename_i hfound
          rw [hfound, Option.bind_some]
        · rename_i hnone
          rw [hnone, Option.bind_none]
  · exact fun _ hc => absurd hc hword.1
  · exact fun _ hc => absurd hc hword.2.1
  · exact fun _ hc => absurd hc hword.2.2

theorem scan_mark {mark : Token} (h : mark? c = some mark) :
    scan (c :: cs) = (scan cs).map (mark :: ·) := by
  have hmark : c = '[' ∨ c = ']' ∨ c = '\x7b' ∨ c = '\x7d' ∨ c = ':' ∨ c = ',' := by
    simp only [mark?] at h
    grind
  have hplain : c ∉ ['n', 't', 'f'] ∧ isBlank c = false := by
    rcases hmark with rfl | rfl | rfl | rfl | rfl | rfl <;> exact ⟨by decide, rfl⟩
  rw [scan_cons hplain.1 hplain.2, h]

theorem scan_null : scan ("null".toList ++ cs) = (scan cs).map (.null :: ·) := by
  rw [show "null".toList ++ cs = 'n' :: 'u' :: 'l' :: 'l' :: cs from rfl, scan]

theorem scan_true : scan ("true".toList ++ cs) = (scan cs).map (.boolean true :: ·) := by
  rw [show "true".toList ++ cs = 't' :: 'r' :: 'u' :: 'e' :: cs from rfl, scan]

theorem scan_false : scan ("false".toList ++ cs) = (scan cs).map (.boolean false :: ·) := by
  rw [show "false".toList ++ cs = 'f' :: 'a' :: 'l' :: 's' :: 'e' :: cs from rfl, scan]

theorem scan_string (s : String) :
    scan (Json.writeString s ++ cs) = (scan cs).map (.string (Json.pieces s) :: ·) := by
  have hstring : scanString (s.toList.flatMap Json.escape ++ ['"'] ++ cs) =
      some (Json.pieces s, cs) := by
    rw [List.append_assoc]
    exact scanString_flatMap_escape s.toList cs
  have hmark : mark? '"' = none := rfl
  rw [Json.writeString, List.cons_append, scan_cons (by decide) rfl, hmark]
  simp only [if_true]
  rw [hstring, Option.bind_some]

/-- What starts an integer starts nothing else. -/
theorem startsNumber (h : c = '-' ∨ c.isDigit = true) :
    c ∉ ['n', 't', 'f'] ∧ isBlank c = false ∧ mark? c = none ∧ c ≠ '"' := by
  have hother : c ∉ ['n', 't', 'f', ' ', '\t', '\n', '\r', '[', ']', '\x7b', '\x7d', ':', ',',
      '"'] := by
    intro hc
    simp only [List.mem_cons, List.not_mem_nil, or_false] at hc
    rcases hc with rfl | rfl | rfl | rfl | rfl | rfl | rfl | rfl | rfl | rfl | rfl | rfl | rfl |
      rfl <;> simp [Char.isDigit] at h
  simp only [List.mem_cons, List.not_mem_nil, or_false, not_or] at hother
  refine ⟨?_, ?_, ?_, ?_⟩
  · simp [hother]
  · simp [isBlank, hother]
  · simp [mark?, hother]
  · simp [hother]

theorem scan_integer (n : Int) (h : Json.EndsNumber cs) :
    scan ((toString n).toList ++ cs) = (scan cs).map (.number (Json.literal n) :: ·) := by
  obtain ⟨c, tail, htext, hc⟩ : ∃ c tail, (toString n).toList = c :: tail ∧
      (c = '-' ∨ c.isDigit = true) := by
    rw [toList_toString_int]
    split
    · exact ⟨'-', _, rfl, Or.inl rfl⟩
    · obtain ⟨c, tail, htail, -⟩ := exists_toDigits_eq_cons n.natAbs
      exact ⟨c, tail, htail, Or.inr (isDigit_of_mem_toDigits (n := n.natAbs) (by simp [htail]))⟩
  have hnumber := scanNumber_toString n h
  obtain ⟨hword, hblank, hmark, hquote⟩ := startsNumber hc
  rw [htext, List.cons_append] at hnumber ⊢
  rw [scan_cons hword hblank, hmark]
  simp only [if_neg hquote]
  rw [hnumber, Option.bind_some]

end Token

namespace Json

/-- **Data that its text gives back**: it has no floats, and its integers are ones that 64 bits
hold. -/
inductive Exact : Json → Prop where
  | null : Exact .null
  | boolean (b : Bool) : Exact (.boolean b)
  | integer {n : Int} : -0x8000000000000000 ≤ n → n < 0x10000000000000000 → Exact (.integer n)
  | string (s : String) : Exact (.string s)
  | array {items : List Json} : (∀ item ∈ items, Exact item) → Exact (.array items)
  | object {members : List (String × Json)} : (∀ m ∈ members, Exact m.2) → Exact (.object members)

mutual

/-- The tokens of the text of data without floats. -/
def tokens : Json → List Token
  | .null => [.null]
  | .boolean b => [.boolean b]
  | .integer n => [.number (literal n)]
  | .float _ => []
  | .string s => [.string (pieces s)]
  | .array [] => [.beginArray, .endArray]
  | .array (item :: rest) => .beginArray :: (item.tokens ++ itemTokens rest)
  | .object [] => [.beginObject, .endObject]
  | .object ((key, value) :: rest) =>
    .beginObject :: .string (pieces key) :: .colon :: (value.tokens ++ memberTokens rest)

/-- The tokens of the items after the first, and of the end of the array. -/
def itemTokens : List Json → List Token
  | [] => [.endArray]
  | item :: rest => .comma :: (item.tokens ++ itemTokens rest)

/-- The tokens of the members after the first, and of the end of the object. -/
def memberTokens : List (String × Json) → List Token
  | [] => [.endObject]
  | (key, value) :: rest =>
    .comma :: .string (pieces key) :: .colon :: (value.tokens ++ memberTokens rest)

end

/-- A number ends where its container goes on. -/
theorem endsNumber_writeItems (items : List Json) (rest : List Char) :
    EndsNumber (writeItems items ++ rest) := by
  cases items with
  | nil => exact Or.inr (Or.inl rfl)
  | cons => exact Or.inl rfl

theorem endsNumber_writeMembers (members : List (String × Json)) (rest : List Char) :
    EndsNumber (writeMembers members ++ rest) := by
  cases members with
  | nil => exact Or.inr (Or.inr rfl)
  | cons => exact Or.inl rfl

open Token in
mutual

/-- **The text of data is scanned into the tokens of the data**, whatever follows. -/
theorem scan_write : (j : Json) → j.Exact → (rest : List Char) → EndsNumber rest →
    scan (j.write ++ rest) = (scan rest).map (j.tokens ++ ·)
  | .null, _, rest, _ => scan_null
  | .boolean true, _, rest, _ => scan_true
  | .boolean false, _, rest, _ => scan_false
  | .integer n, _, rest, hrest => scan_integer n hrest
  | .float d, h, _, _ => nomatch h
  | .string s, _, rest, _ => scan_string s
  | .array [], _, rest, _ => by
    rw [write, List.cons_append, scan_mark rfl, List.cons_append, scan_mark rfl, Option.map_map]
    rfl
  | .array (item :: items), h, rest, hrest => by
    cases h with
    | array h =>
      obtain ⟨hitem, hitems⟩ := List.forall_mem_cons.mp h
      rw [write, List.cons_append, scan_mark rfl, List.append_assoc,
        scan_write item hitem _ (endsNumber_writeItems items rest),
        scan_writeItems items hitems rest hrest, tokens]
      simp [Function.comp_def]
  | .object [], _, rest, _ => by
    rw [write, List.cons_append, scan_mark rfl, List.cons_append, scan_mark rfl, Option.map_map]
    rfl
  | .object ((key, value) :: members), h, rest, hrest => by
    cases h with
    | object h =>
      obtain ⟨hvalue, hmembers⟩ := List.forall_mem_cons.mp h
      rw [write, List.cons_append, scan_mark rfl, List.append_assoc, scan_string,
        List.cons_append, scan_mark rfl, List.append_assoc,
        scan_write value hvalue _ (endsNumber_writeMembers members rest),
        scan_writeMembers members hmembers rest hrest, tokens]
      simp [Function.comp_def]

theorem scan_writeItems : (items : List Json) → (∀ item ∈ items, item.Exact) →
    (rest : List Char) → EndsNumber rest →
    scan (writeItems items ++ rest) = (scan rest).map (itemTokens items ++ ·)
  | [], _, rest, _ => scan_mark rfl
  | item :: items, h, rest, hrest => by
    obtain ⟨hitem, hitems⟩ := List.forall_mem_cons.mp h
    rw [writeItems, List.cons_append, scan_mark rfl, List.append_assoc,
      scan_write item hitem _ (endsNumber_writeItems items rest),
      scan_writeItems items hitems rest hrest, itemTokens]
    simp [Function.comp_def]

theorem scan_writeMembers : (members : List (String × Json)) → (∀ m ∈ members, m.2.Exact) →
    (rest : List Char) → EndsNumber rest →
    scan (writeMembers members ++ rest) = (scan rest).map (memberTokens members ++ ·)
  | [], _, rest, _ => scan_mark rfl
  | (key, value) :: members, h, rest, hrest => by
    obtain ⟨hvalue, hmembers⟩ := List.forall_mem_cons.mp h
    rw [writeMembers, List.cons_append, scan_mark rfl, List.append_assoc, scan_string,
      List.cons_append, scan_mark rfl, List.append_assoc,
      scan_write value hvalue _ (endsNumber_writeMembers members rest),
      scan_writeMembers members hmembers rest hrest, memberTokens]
    simp [Function.comp_def]

end

end Json

end MethodGuard
