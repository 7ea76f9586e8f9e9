import Recalc.Proofs.Documents
import Recalc.Proofs.ExactValues

/-!
# Texts of documents

A text is read back as the document that it was written from, up to the numbers in it (`read?_text`):
texts are a medium. What a number becomes is read off its own text; an integer of 64 bits is kept
(`Medium.integer_texts`).
-/
namespace Recalc.Json

open Number.Decimal

namespace Read

variable {rest s : List Char} {n : Nat}

/-- What can follow a value in a document: nothing, a comma or a closing mark. -/
def Ends (rest : List Char) : Prop :=
  ∀ c ∈ rest.head?, c = ',' ∨ c = ']' ∨ c = '\x7d'

theorem ends_nil : Ends [] :=
  nofun

theorem skip_of_head (solid : ∀ c ∈ s.head?, isSpace c = false) : skip s = s := by
  cases s with
  | nil => rfl
  | cons c rest => simp [skip, solid c rfl]

/-! ### Strings -/

theorem hexUnit_append (read : hexUnit s = some (n, [])) : hexUnit (s ++ rest) = some (n, rest) := by
  unfold hexUnit at read
  split at read
  next a b c d more =>
    simp only [Option.bind_eq_bind, Option.bind_eq_some_iff, Option.pure_def, Option.some.injEq,
      Prod.mk.injEq] at read
    obtain ⟨a', ha, b', hb, c', hc, d', hd, rfl, rfl⟩ := read
    simp [hexUnit, ha, hb, hc, hd]
  next => cases read

/-- A character below the space is written with its number in four digits. -/
theorem hexUnit_hexDigits (small : n < 0x20) (rest : List Char) :
    hexUnit (hexDigits n ++ rest) = some (n, rest) := by
  have digits : ∀ n < 0x20, hexUnit (hexDigits n) = some (n, []) := by decide
  exact hexUnit_append (digits n small)

theorem escape_control {c : Char} (control : c.toNat < 0x20) (rest : List Char) :
    escape ('u' :: (hexDigits c.toNat ++ rest)) = some (c, rest) := by
  have unit := hexUnit_hexDigits control rest
  have noHigh : ¬(0xD800 ≤ c.toNat ∧ c.toNat < 0xDC00) := by omega
  have noLow : ¬(0xDC00 ≤ c.toNat ∧ c.toNat < 0xE000) := by omega
  simp only [escape, unicodeEscape, unit, Option.bind_eq_bind, Option.bind_some, if_neg noHigh,
    if_neg noLow, Option.pure_def, Char.ofNat_toNat]

/-- Each character of a text is read back, whether it was written with an escape or not. -/
theorem stringBody_quoteChar (limit : Nat) (read : List Char) (c : Char) (rest : List Char) :
    stringBody (limit + 1) read (quoteChar c ++ rest) = stringBody limit (c :: read) rest := by
  unfold quoteChar
  split
  next quote =>
    subst quote
    rfl
  next noQuote =>
    split
    next backslash =>
      subst backslash
      rfl
    next noBackslash =>
      split
      next control =>
        have escaped := escape_control control rest
        simp [stringBody, escaped]
      next printed => simp [stringBody, noQuote, noBackslash, printed]

theorem length_quoteChar (c : Char) : 0 < (quoteChar c).length := by
  unfold quoteChar
  split
  · exact Nat.zero_lt_succ _
  · split
    · exact Nat.zero_lt_succ _
    · split <;> exact Nat.zero_lt_succ _

theorem length_le_quoted (cs : List Char) : cs.length ≤ (cs.flatMap quoteChar).length := by
  induction cs with
  | nil => exact Nat.le_refl 0
  | cons c cs ih =>
    have written := length_quoteChar c
    rw [List.flatMap_cons, List.length_append, List.length_cons]
    omega

theorem stringBody_quoted {cs : List Char} {limit : Nat} (enough : cs.length < limit)
    (read rest : List Char) :
    stringBody limit read (cs.flatMap quoteChar ++ '"' :: rest) =
      some (String.ofList (read.reverse ++ cs), rest) := by
  induction cs generalizing limit read with
  | nil =>
    obtain ⟨limit, rfl⟩ := Nat.exists_eq_add_one_of_ne_zero (Nat.ne_of_gt enough)
    simp [stringBody]
  | cons c cs ih =>
    obtain ⟨limit, rfl⟩ := Nat.exists_eq_add_one_of_ne_zero (Nat.ne_of_gt (Nat.zero_lt_of_lt enough))
    rw [List.flatMap_cons, List.append_assoc, stringBody_quoteChar,
      ih (Nat.lt_of_succ_lt_succ enough), List.reverse_cons, List.append_assoc, List.singleton_append]

/-- A quoted text without its first mark is read back as the text. -/
theorem stringBody_quote (t : String) (rest : List Char) :
    ∃ body, (quote t).toList ++ rest = '"' :: body ∧
      stringBody (body.length + 1) [] body = some (t, rest) := by
  refine ⟨t.toList.flatMap quoteChar ++ '"' :: rest, ?_, ?_⟩
  · simp [quote]
  · have short := length_le_quoted t.toList
    have enough : t.toList.length < (t.toList.flatMap quoteChar ++ '"' :: rest).length + 1 := by
      rw [List.length_append]
      omega
    rw [stringBody_quoted enough]
    simp

/-! ### Numbers -/

/-- The digits before a point: a zero, or digits that start with no zero. -/
def IsWhole (digits : List Char) : Prop :=
  digits = ['0'] ∨ digits ≠ [] ∧ digits.head? ≠ some '0' ∧ ∀ c ∈ digits, c.isDigit = true

/-- Numerals start with a digit. -/
theorem IsWhole.exists_cons {digits : List Char} (whole : IsWhole digits) :
    ∃ c more, digits = c :: more ∧ c.isDigit = true := by
  rcases whole with rfl | ⟨some, -, all⟩
  · exact ⟨'0', [], rfl, rfl⟩
  · obtain ⟨c, more, rfl⟩ := List.exists_cons_of_ne_nil some
    exact ⟨c, more, rfl, all c List.mem_cons_self⟩

theorem isWhole_toDigits (n : Nat) : IsWhole (Nat.toDigits 10 n) := by
  rcases Nat.eq_zero_or_pos n with rfl | positive
  · exact .inl rfl
  · exact .inr ⟨Nat.toDigits_ne_nil, head?_toDigits positive,
      fun c => Nat.isDigit_of_mem_toDigits (by decide) (by decide)⟩

/-- Zeros can follow the digits, unless they are a zero themselves. -/
theorem isWhole_toDigits_append (n zeros : Nat) :
    IsWhole (Nat.toDigits 10 n ++ if n = 0 then [] else List.replicate zeros '0') := by
  rcases Nat.eq_zero_or_pos n with rfl | positive
  · exact isWhole_toDigits 0
  · rw [if_neg (Nat.ne_of_gt positive)]
    refine .inr ⟨by simp, ?_, fun c member => ?_⟩
    · rw [List.head?_append_of_ne_nil _ Nat.toDigits_ne_nil]
      exact head?_toDigits positive
    · rcases List.mem_append.mp member with digit | zero
      · exact Nat.isDigit_of_mem_toDigits (by decide) (by decide) digit
      · rw [(List.mem_replicate.mp zero).2]
        rfl

/-- The whole part of a numeral with a given number of places after its point, led by zeros up to the
digit before the point. -/
theorem isWhole_take_numeral (n : Nat) {places : Nat} (positive : 0 < places) :
    IsWhole ((numeral (places + 1) n).take ((numeral (places + 1) n).length - places)) := by
  have length : (numeral (places + 1) n).length = max (places + 1) (Nat.toDigits 10 n).length :=
    List.length_leftpad ..
  by_cases short : (Nat.toDigits 10 n).length ≤ places
  · left
    obtain ⟨more, count⟩ : ∃ more, places + 1 - (Nat.toDigits 10 n).length = more + 1 :=
      ⟨places - (Nat.toDigits 10 n).length, by omega⟩
    have one : (numeral (places + 1) n).length - places = 1 := by omega
    rw [one, numeral, List.leftpad, count, List.replicate_succ, List.cons_append,
      List.take_succ_cons, List.take_zero]
  · right
    have unled : places + 1 - (Nat.toDigits 10 n).length = 0 := by omega
    have same : numeral (places + 1) n = Nat.toDigits 10 n := by
      rw [numeral, List.leftpad, unled, List.replicate_zero, List.nil_append]
    -- zero has no digit but one
    have pos : 0 < n := by
      refine Nat.pos_of_ne_zero fun zero => short ?_
      rw [zero]
      exact positive
    have some : (numeral (places + 1) n).length - places ≠ 0 := by omega
    rw [same] at some ⊢
    refine ⟨by simpa using some, ?_, fun c member => ?_⟩
    · rw [List.head?_take, if_neg some]
      exact head?_toDigits pos
    · exact Nat.isDigit_of_mem_toDigits (by decide) (by decide) (List.mem_of_mem_take member)

theorem drop_numeral_ne_nil (n : Nat) {places : Nat} (positive : 0 < places) :
    (numeral (places + 1) n).drop ((numeral (places + 1) n).length - places) ≠ [] := by
  have length : (numeral (places + 1) n).length = max (places + 1) (Nat.toDigits 10 n).length :=
    List.length_leftpad ..
  rw [ne_eq, List.drop_eq_nil_iff]
  omega

theorem wholePart_append {digits : List Char} (whole : IsWhole digits)
    (stop : ∀ c ∈ rest.head?, c.isDigit = false) :
    wholePart (digits ++ rest) = some (digits, rest) := by
  rcases whole with rfl | ⟨some, noZero, all⟩
  · rfl
  · have split := splitDigits_append all stop
    have filled : digits.isEmpty = false := by simpa using some
    obtain ⟨c, more, rfl⟩ := List.exists_cons_of_ne_nil some
    unfold wholePart
    split
    next zero => exact absurd (congrArg Option.some (List.cons.inj zero).1) noZero
    next => simp only [split, filled, Bool.false_eq_true, if_false]

theorem Ends.noDigit (ends : Ends rest) : ∀ c ∈ rest.head?, c.isDigit = false := by
  intro c first
  rcases ends c first with rfl | rfl | rfl <;> rfl

end Read

/-- The text of a number: a minus or nothing, digits, and a point with more digits or nothing. -/
structure Numeral where
  negative : Bool
  whole : List Char
  fraction : List Char
  isWhole : Read.IsWhole whole
  digits : ∀ c ∈ fraction, c.isDigit = true

namespace Numeral

variable {rest : List Char}

/-- The point and the digits after it, if there are any. -/
def point (n : Numeral) : List Char :=
  if n.fraction.isEmpty then [] else '.' :: n.fraction

def text (n : Numeral) : List Char :=
  (if n.negative then ['-'] else []) ++ (n.whole ++ n.point)

/-- The document that is read from a numeral. -/
def document (n : Numeral) : Json :=
  if n.fraction.isEmpty then Read.ofDigits n.negative n.whole
  else .real (Number.Decimal.ofParts n.negative n.whole n.fraction 0).toFloat

theorem fractionPart_point (n : Numeral) (ends : Read.Ends rest) :
    Read.fractionPart (n.point ++ rest) = some (n.fraction, rest) := by
  unfold point
  split
  next whole =>
    rw [List.isEmpty_iff.mp whole]
    cases rest with
    | nil => rfl
    | cons c rest => rcases ends c rfl with rfl | rfl | rfl <;> rfl
  next broken =>
    have split := splitDigits_append n.digits ends.noDigit
    simp only [List.cons_append, Read.fractionPart, split, broken, Bool.false_eq_true, if_false]

theorem exponentPart_ends (ends : Read.Ends rest) :
    Read.exponentPart rest = some (none, rest) := by
  cases rest with
  | nil => rfl
  | cons c rest => rcases ends c rfl with rfl | rfl | rfl <;> rfl

theorem wholePart_whole (n : Numeral) (ends : Read.Ends rest) :
    Read.wholePart (n.whole ++ (n.point ++ rest)) = some (n.whole, n.point ++ rest) := by
  refine Read.wholePart_append n.isWhole ?_
  unfold point
  split
  · exact ends.noDigit
  · rintro c ⟨⟩
    rfl

/-- A numeral is read up to the end of its value. -/
theorem number_text (n : Numeral) (ends : Read.Ends rest) :
    Read.number (n.text ++ rest) = some (n.document, rest) := by
  have whole := n.wholePart_whole ends
  have fraction := n.fractionPart_point ends
  have exponent := exponentPart_ends ends
  cases sign : n.negative with
  | true =>
    simp only [text, document, sign, if_true, List.cons_append, List.nil_append, List.append_assoc,
      Read.number, whole, fraction, exponent, Option.bind_eq_bind, Option.bind_some,
      Option.isNone_none, and_true, Option.getD_none, Option.pure_def]
  | false =>
    obtain ⟨c, more, digits, digit⟩ := n.isWhole.exists_cons
    have noMinus : c ≠ '-' := by
      rintro rfl
      cases digit
    simp only [text, document, sign, Bool.false_eq_true, if_false, List.nil_append, List.append_assoc]
    rw [digits] at whole ⊢
    simp only [Read.number]
    split
    next minus => exact absurd (List.cons.inj minus).1 noMinus
    next =>
      simp only [whole, fraction, exponent, Option.bind_eq_bind, Option.bind_some,
        Option.isNone_none, and_true, Option.getD_none, Option.pure_def]

/-! ### Integers and decimals -/

def ofInt (i : Int) : Numeral where
  negative := decide (i < 0)
  whole := Nat.toDigits 10 i.natAbs
  fraction := []
  isWhole := Read.isWhole_toDigits i.natAbs
  digits := nofun

theorem text_ofInt (i : Int) : (ofInt i).text = (toString i).toList := by
  rw [Int.toString_eq_repr, Int.repr_eq_if]
  by_cases negative : i < 0
  · have size : (-i).toNat = i.natAbs := by omega
    rw [if_neg (by omega)]
    simp [text, point, ofInt, negative, size, Nat.repr_eq_ofList_toDigits]
  · have size : i.toNat = i.natAbs := by omega
    rw [if_pos (by omega)]
    simp [text, point, ofInt, negative, size, Nat.repr_eq_ofList_toDigits]

/-- An integer of 64 bits is read back as itself. -/
theorem document_ofInt {i : Int} (low : -0x8000000000000000 ≤ i) (high : i < 0x10000000000000000) :
    (ofInt i).document = .integer i := by
  have value := natOfDigits_toDigits i.natAbs
  by_cases negative : i < 0
  · have fits : 0 < i.natAbs ∧ i.natAbs ≤ 0x8000000000000000 := by omega
    simp [document, ofInt, Read.ofDigits, negative, value, fits, abs_of_neg]
  · have fits : i.natAbs < 0x10000000000000000 := by omega
    have size : (i.natAbs : Int) = i := by omega
    simp [document, ofInt, Read.ofDigits, negative, value, fits, size]

/-- The text of a decimal is a numeral. -/
theorem exists_text_eq_positional (d : Number.Decimal) :
    ∃ n : Numeral, n.text = d.positional.toList := by
  have sign : (if d.negative then "-" else "").toList = if d.negative then ['-'] else [] := by
    cases d.negative <;> rfl
  unfold Number.Decimal.positional
  rw [String.toList_append, String.toList_ofList, sign]
  by_cases large : 0 ≤ d.exponent
  · have isWhole := Read.isWhole_toDigits_append d.digits d.exponent.toNat
    refine ⟨⟨d.negative, _, [], isWhole, nofun⟩, ?_⟩
    simp [text, point, large]
  · -- zeros lead the digits where they do not reach the point
    have positive : 0 < (-d.exponent).toNat := by omega
    let digits := numeral ((-d.exponent).toNat + 1) d.digits
    have fraction : ∀ c ∈ digits.drop (digits.length - (-d.exponent).toNat), c.isDigit = true :=
      fun c member => isDigit_of_mem_numeral (List.mem_of_mem_drop member)
    have filled := Read.drop_numeral_ne_nil d.digits positive
    refine ⟨⟨d.negative, _, _, Read.isWhole_take_numeral d.digits positive, fraction⟩, ?_⟩
    simp only [text, point, digits, List.isEmpty_eq_false_iff.mpr filled, Bool.false_eq_true,
      if_false, if_neg large]
    rfl

/-- Whether the text of a number can start with a character. -/
def Leads (c : Char) : Prop :=
  c = '-' ∨ c.isDigit = true

theorem Leads.ne {c d : Char} (leads : Leads c) (noMinus : d ≠ '-') (noDigit : d.isDigit = false) :
    c ≠ d := by
  rintro rfl
  rcases leads with minus | digit
  · exact noMinus minus
  · rw [digit] at noDigit
    cases noDigit

theorem Leads.isSpace_eq_false {c : Char} (leads : Leads c) : Read.isSpace c = false := by
  have blank : c ≠ ' ' := leads.ne (by decide) (by decide)
  have tab : c ≠ '\t' := leads.ne (by decide) (by decide)
  have line : c ≠ '\n' := leads.ne (by decide) (by decide)
  have carriage : c ≠ '\r' := leads.ne (by decide) (by decide)
  simp [Read.isSpace, blank, tab, line, carriage]

theorem exists_text_cons (n : Numeral) : ∃ c more, n.text = c :: more ∧ Leads c := by
  obtain ⟨c, more, digits, digit⟩ := n.isWhole.exists_cons
  cases sign : n.negative with
  | true => exact ⟨'-', n.whole ++ n.point, by simp [text, sign], .inl rfl⟩
  | false => exact ⟨c, more ++ n.point, by simp [text, sign, digits], .inr digit⟩

end Numeral

/-! ### Texts as a medium -/

/-- What a text that starts with a number has there. -/
def reread (t : List Char) : Json :=
  ((Read.number t).map Prod.fst).getD null

/-- The medium that documents pass through when they are written as texts. -/
def Medium.texts : Medium where
  integer i := reread (toString i).toList
  real x := if x.isFinite then reread (Number.text x).toList else null

theorem Numeral.reread_text (n : Numeral) : reread n.text = n.document := by
  have read := n.number_text Read.ends_nil
  rw [List.append_nil] at read
  rw [reread, read, Option.map_some, Option.getD_some]

/-- Texts keep the integers of 64 bits. -/
theorem Medium.integer_texts {i : Int} (low : -0x8000000000000000 ≤ i)
    (high : i < 0x10000000000000000) : Medium.texts.integer i = .integer i := by
  show reread (toString i).toList = .integer i
  rw [← Numeral.text_ofInt, Numeral.reread_text, Numeral.document_ofInt low high]

/-- The text of a finite number is a numeral. -/
theorem exists_numeral_of_isFinite {x : Float} (finite : x.isFinite = true) :
    ∃ n : Numeral, n.text = (Number.text x).toList := by
  obtain ⟨d, found⟩ := Number.isFinite_iff.mp finite
  rw [Number.text, found]
  exact Numeral.exists_text_eq_positional d.shortest

theorem textsOfItems_eq_map (items : List Json) : textsOfItems items = items.map text := by
  induction items with
  | nil => rfl
  | cons item rest ih => rw [textsOfItems, ih, List.map_cons]

theorem textsOfMembers_eq_map (ms : List (String × Json)) :
    textsOfMembers ms = ms.map fun m => quote m.1 ++ ":" ++ m.2.text := by
  induction ms with
  | nil => rfl
  | cons m rest ih => rw [textsOfMembers, ih, List.map_cons]

namespace Read

variable {α : Type} {rest s : List Char} {nesting : Nat} {close : Char}

/-- Whether a text starts with neither a space nor a closing mark. -/
def Solid (s : List Char) : Prop :=
  ∃ c more, s = c :: more ∧ isSpace c = false ∧ c ≠ ']' ∧ c ≠ '\x7d'

theorem Ends.skip (ends : Ends rest) : skip rest = rest := by
  refine skip_of_head fun c first => ?_
  rcases ends c first with rfl | rfl | rfl <;> rfl

/-- Whether a reader takes a text up to the end of a value and gives what it stands for. -/
def Takes (read : Reader α) (t : List Char) (a : α) : Prop :=
  ∀ rest, Ends rest → read (t ++ rest) = some (a, rest)

/-! ### Groups -/

/-- The texts of items with commas between them and a closing mark are read as the items. -/
theorem items_intercalate {read : Reader α} {texts : List (List Char)} {l : List α}
    (each : List.Forall₂ (Takes read) texts l) (filled : texts ≠ [])
    (closing : close = ']' ∨ close = '\x7d') {limit : Nat} (enough : texts.length ≤ limit) :
    items read close limit ([','].intercalate texts ++ close :: rest) = some (l, rest) := by
  have ends : Ends (close :: rest) := fun c first => Option.some.inj first ▸ .inr closing
  -- on the items; an item is the last one where a closing mark and no comma follows it
  induction each generalizing limit with
  | nil => exact absurd rfl filled
  | @cons t a texts l first others ih =>
    obtain ⟨limit, rfl⟩ := Nat.exists_eq_add_one_of_ne_zero (Nat.ne_of_gt (Nat.zero_lt_of_lt enough))
    cases others with
    | nil =>
      have last : read (t ++ close :: rest) = some (a, close :: rest) := first _ ends
      rcases closing with rfl | rfl <;> simp [items, last, ends.skip]
    | @cons t' a' texts l second others =>
      have comma : Ends (',' :: ([','].intercalate (t' :: texts) ++ close :: rest)) :=
        fun c first => Option.some.inj first ▸ .inl rfl
      have next := first _ comma
      have later := ih (List.cons_ne_nil _ _) (Nat.le_of_succ_le_succ enough)
      rw [List.intercalate_cons_cons, List.append_assoc, List.append_assoc, List.singleton_append]
      simp only [items, next, comma.skip, later, Option.map_some]

theorem length_le_intercalate (texts : List (List Char)) :
    texts.length ≤ ([','].intercalate texts).length + 1 := by
  induction texts with
  | nil => exact Nat.zero_le _
  | cons t texts ih =>
    cases texts with
    | nil => exact Nat.le_add_left _ _
    | cons t' texts =>
      rw [List.intercalate_cons_cons]
      simp only [List.length_append, List.length_cons, List.length_nil] at ih ⊢
      omega

/-- Items whose texts start with no closing mark are read after an opening mark. -/
theorem group_intercalate {read : Reader α} {texts : List (List Char)} {l : List α}
    (each : List.Forall₂ (Takes read) texts l) (solid : ∀ t ∈ texts, Solid t)
    (closing : close = ']' ∨ close = '\x7d') :
    group read close ([','].intercalate texts ++ close :: rest) = some (l, rest) := by
  have ends : Ends (close :: rest) := fun c first => Option.some.inj first ▸ .inr closing
  cases each with
  | nil => simp [group, ends.skip]
  | @cons t a texts l first others =>
    obtain ⟨c, more, text, noSpace, noBracket, noBrace⟩ := solid t List.mem_cons_self
    have noClose : c ≠ close := by
      rcases closing with rfl | rfl
      · exact noBracket
      · exact noBrace
    obtain ⟨after, start⟩ : ∃ after, [','].intercalate (t :: texts) = c :: after := by
      cases texts <;> simp [text, List.intercalate_cons_cons]
    -- the commas and the closing mark are as many as the items
    have enough : (t :: texts).length ≤ (after ++ close :: rest).length + 1 := by
      have size := length_le_intercalate (t :: texts)
      rw [start] at size
      simp only [List.length_append, List.length_cons] at size ⊢
      omega
    have taken : items read close ((after ++ close :: rest).length + 1)
        ([','].intercalate (t :: texts) ++ close :: rest) = some (a :: l, rest) :=
      items_intercalate (.cons first others) (List.cons_ne_nil _ _) closing enough
    have stay : skip (c :: (after ++ close :: rest)) = c :: (after ++ close :: rest) :=
      skip_of_head fun _ first => Option.some.inj first ▸ noSpace
    rw [start, List.cons_append] at taken ⊢
    simp only [group, stay, if_neg noClose]
    exact taken

/-! ### Values -/

/-- A numeral starts like no other value, so that it is left to the reader of numbers. -/
theorem value_numeral (n : Numeral) : Takes (value nesting) n.text n.document := by
  intro rest ends
  have read := n.number_text ends
  obtain ⟨c, more, text, leads⟩ := n.exists_text_cons
  have noQuote : c ≠ '"' := leads.ne (by decide) (by decide)
  have noBracket : c ≠ '[' := leads.ne (by decide) (by decide)
  have noBrace : c ≠ '\x7b' := leads.ne (by decide) (by decide)
  have noNull : c ≠ 'n' := leads.ne (by decide) (by decide)
  have noTrue : c ≠ 't' := leads.ne (by decide) (by decide)
  have noFalse : c ≠ 'f' := leads.ne (by decide) (by decide)
  rw [text, List.cons_append] at read ⊢
  rw [value, skip_of_head (by simpa using leads.isSpace_eq_false)]
  simp [noQuote, noBracket, noBrace, noNull, noTrue, noFalse, read]

theorem value_string (t : String) : Takes (value nesting) (quote t).toList (string t) := by
  intro rest _
  obtain ⟨body, quoted, read⟩ := stringBody_quote t rest
  have stay : skip ('"' :: body) = '"' :: body := rfl
  rw [quoted, value]
  simp only [stay, read, Option.map_some]

theorem value_null : Takes (value nesting) "null".toList null := by
  intro rest _
  rw [value]
  rfl

theorem value_boolean (b : Bool) : Takes (value nesting) (boolean b).text.toList (boolean b) := by
  intro rest _
  rw [value]
  cases b <;> rfl

/-- The text of an integer is read as what it becomes in texts. -/
theorem value_integer (i : Int) :
    Takes (value nesting) (integer i).text.toList ((integer i).conveyed .texts) := by
  have taken : Takes (value nesting) (Numeral.ofInt i).text (Numeral.ofInt i).document :=
    value_numeral (Numeral.ofInt i)
  rw [← Numeral.reread_text, Numeral.text_ofInt] at taken
  rw [text, conveyed]
  exact taken

theorem value_real (x : Float) :
    Takes (value nesting) (real x).text.toList ((real x).conveyed .texts) := by
  rw [text, conveyed, Medium.texts]
  by_cases finite : x.isFinite = true
  · obtain ⟨n, same⟩ := exists_numeral_of_isFinite finite
    simp only [if_pos finite]
    rw [← same, n.reread_text]
    exact value_numeral n
  · simp only [if_neg finite]
    exact value_null

/-- Values other than arrays and objects are read at any depth. -/
theorem value_scalar {j : Json} (flat : j.depth = 0) :
    Takes (value nesting) j.text.toList (j.conveyed .texts) := by
  cases j with
  | null => simpa only [text, conveyed] using value_null
  | boolean b => simpa only [conveyed] using value_boolean b
  | integer i => exact value_integer i
  | real x => exact value_real x
  | string t => simpa only [text, conveyed] using value_string t
  | array items => cases flat
  | object ms => cases flat

/-! ### Arrays and objects -/

theorem solid_numeral (n : Numeral) : Solid n.text := by
  obtain ⟨c, more, text, leads⟩ := n.exists_text_cons
  exact ⟨c, more, text, leads.isSpace_eq_false, leads.ne (by decide) (by decide),
    leads.ne (by decide) (by decide)⟩

theorem solid_quote (t : String) : Solid ((quote t).toList ++ s) :=
  ⟨'"', t.toList.flatMap quoteChar ++ ['"'] ++ s, by simp [quote], by decide⟩

/-- No text of a document starts with a space or a closing mark. -/
theorem solid_text (j : Json) : Solid j.text.toList := by
  have word : Solid "null".toList := ⟨'n', "ull".toList, rfl, by decide⟩
  cases j with
  | null => simpa only [text] using word
  | boolean b => cases b <;> exact ⟨_, _, rfl, by decide⟩
  | integer i =>
    rw [text, ← Numeral.text_ofInt]
    exact solid_numeral (Numeral.ofInt i)
  | real x =>
    rw [text]
    split
    next finite =>
      obtain ⟨n, same⟩ := exists_numeral_of_isFinite finite
      exact same ▸ solid_numeral n
    next => exact word
  | string t => simpa only [text, List.append_nil] using solid_quote (s := []) t
  | array items =>
    exact ⟨'[', (",".intercalate (textsOfItems items) ++ "]").toList, by simp [text], by decide⟩
  | object ms =>
    exact ⟨'\x7b', (",".intercalate (textsOfMembers ms) ++ "\x7d").toList, by simp [text], by decide⟩

theorem value_array {items : List Json} {l : List Json}
    (each : List.Forall₂ (Takes (value nesting)) (items.map fun item => item.text.toList) l) :
    Takes (value (nesting + 1)) (array items).text.toList (array l) := by
  intro rest _
  have joined : (array items).text.toList ++ rest =
      '[' :: ([','].intercalate (items.map fun item => item.text.toList) ++ ']' :: rest) := by
    simp [text, textsOfItems_eq_map, String.toList_intercalate, List.map_map, Function.comp_def]
  have solid : ∀ t ∈ items.map fun item => item.text.toList, Solid t :=
    List.forall_mem_map.mpr fun item _ => solid_text item
  have grouped : group (value nesting) ']' _ = some (l, rest) :=
    group_intercalate each solid (.inl rfl)
  have stay : ∀ s, skip ('[' :: s) = '[' :: s := fun _ => rfl
  rw [joined, value]
  simp only [stay, grouped, Option.map_some]

/-- The text of a member of an object. -/
def memberText (m : String × Json) : List Char :=
  (quote m.1).toList ++ ':' :: m.2.text.toList

theorem takes_member {read : Reader Json} {name : String} {item : Json} {j : Json}
    (takes : Takes read item.text.toList j) :
    Takes (member read) (memberText (name, item)) (name, j) := by
  intro rest ends
  obtain ⟨body, quoted, named⟩ := stringBody_quote name (':' :: (item.text.toList ++ rest))
  have stay : skip ('"' :: body) = '"' :: body := rfl
  have colon : skip (':' :: (item.text.toList ++ rest)) = ':' :: (item.text.toList ++ rest) := rfl
  have valued := takes rest ends
  rw [memberText, List.append_assoc, List.cons_append, quoted, member]
  simp only [stay, named, colon, valued, Option.bind_eq_bind, Option.bind_some, Option.pure_def]

theorem value_object {ms : List (String × Json)} {l : List (String × Json)}
    (each : List.Forall₂ (Takes (member (value nesting))) (ms.map memberText) l) :
    Takes (value (nesting + 1)) (object ms).text.toList (object l) := by
  intro rest _
  have joined : (object ms).text.toList ++ rest =
      '\x7b' :: ([','].intercalate (ms.map memberText) ++ '\x7d' :: rest) := by
    have texts : (ms.map fun m => (quote m.1 ++ ":" ++ m.2.text).toList) = ms.map memberText := by
      simp [memberText]
    simp [text, textsOfMembers_eq_map, String.toList_intercalate, List.map_map, Function.comp_def,
      ← texts]
  have solid : ∀ t ∈ ms.map memberText, Solid t :=
    List.forall_mem_map.mpr fun m _ => solid_quote m.1
  have grouped : group (member (value nesting)) '\x7d' _ = some (l, rest) :=
    group_intercalate each solid (.inr rfl)
  have stay : ∀ s, skip ('\x7b' :: s) = '\x7b' :: s := fun _ => rfl
  rw [joined, value]
  simp only [stay, grouped, Option.map_some]

/-- A document that is not too deep is read from its text as the medium of texts conveys it. -/
theorem value_text {j : Json} (deep : j.depth ≤ nesting) :
    Takes (value nesting) j.text.toList (j.conveyed .texts) := by
  induction nesting generalizing j with
  | zero => exact value_scalar (Nat.le_zero.mp deep)
  | succ nesting ih =>
    cases j with
    | array items =>
      have each : List.Forall₂ (Takes (value nesting)) (items.map fun item => item.text.toList)
          (items.map (conveyed .texts)) := by
        simp only [List.forall₂_map_left_iff, List.forall₂_map_right_iff, List.forall₂_same]
        intro item listed
        exact ih ((depth_le_depthOfItems listed).trans (Nat.le_of_succ_le_succ deep))
      rw [conveyed_array]
      exact value_array each
    | object ms =>
      have each : List.Forall₂ (Takes (member (value nesting))) (ms.map memberText)
          (ms.map fun m => (m.1, m.2.conveyed .texts)) := by
        simp only [List.forall₂_map_left_iff, List.forall₂_map_right_iff, List.forall₂_same]
        intro m listed
        exact takes_member
          (ih ((depth_le_depthOfMembers listed).trans (Nat.le_of_succ_le_succ deep)))
      rw [conveyed_object]
      exact value_object each
    | _ => exact value_scalar rfl

end Read

/-- The text of a document that is not too deep is read back up to its numbers. -/
theorem read?_text {nesting : Nat} {j : Json} (deep : j.depth ≤ nesting) :
    read? nesting j.text = some (j.conveyed .texts) := by
  have read := Read.value_text deep [] Read.ends_nil
  rw [List.append_nil] at read
  simp only [read?, read]
  rfl

end Recalc.Json
