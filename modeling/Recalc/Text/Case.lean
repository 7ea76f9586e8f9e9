import Recalc.Text.CaseTable

/-!
# Changing and ignoring case

Full case conversion follows the Unicode standard: one character may become several, and a capital
sigma at the end of a word becomes the final form. Names, keywords and error tokens ignore the case
of ASCII letters only.
-/

namespace Recalc.Text

/-! ### ASCII -/

/-- Upper case of the ASCII letters; all other characters stay. -/
def asciiUpper (s : String) : String :=
  s.map Char.toUpper

private theorem toUpper_toUpper (c : Char) : c.toUpper.toUpper = c.toUpper := by
  by_cases lower : 'a'.val ≤ c.val ∧ c.val ≤ 'z'.val
  · have upper : ¬('a'.val ≤ c.toUpper.val ∧ c.toUpper.val ≤ 'z'.val) := by
      have value : c.toUpper.val = c.val + ('A'.val - 'a'.val) := by
        unfold Char.toUpper
        rw [dif_pos lower]
      obtain ⟨least, greatest⟩ := lower
      rw [value]
      simp only [UInt32.le_iff_toNat_le, UInt32.toNat_add, Char.reduceVal, UInt32.reduceSub,
        UInt32.reduceToNat] at least greatest ⊢
      omega
    unfold Char.toUpper at upper ⊢
    simp only [dif_pos lower] at upper ⊢
    rw [dif_neg upper]
  · have same : c.toUpper = c := by
      unfold Char.toUpper
      rw [dif_neg lower]
    rw [same, same]

theorem asciiUpper_asciiUpper (s : String) : asciiUpper (asciiUpper s) = asciiUpper s := by
  rw [asciiUpper, asciiUpper, String.map_map]
  exact congrArg (String.map · s) (funext toUpper_toUpper)

/-- Equality up to the case of ASCII letters. -/
def sameIgnoringCase (s t : String) : Bool :=
  asciiUpper s == asciiUpper t

/-! ### Full conversion -/

def findRun (runs : List CaseRun) (n : Nat) : Option CaseRun :=
  runs.find? fun r => r.first ≤ n && n ≤ r.last && (n - r.first) % r.step == 0

/-- Maps one character by a table of expansions and a table of runs. -/
def mapChar (expansions : List (Nat × List Nat)) (runs : List CaseRun) (c : Char) :
    List Char :=
  match expansions.lookup c.toNat with
  | some ns => ns.map Char.ofNat
  | none =>
    match findRun runs c.toNat with
    | some r => [Char.ofNat (c.toNat + r.shift).toNat]
    | none => [c]

def inRanges (ranges : List (Nat × Nat)) (c : Char) : Bool :=
  ranges.any fun r => r.1 ≤ c.toNat && c.toNat ≤ r.2

/-- Whether the first character that is not passed over is a letter with case. -/
def startsCased (s : List Char) : Bool :=
  match s.dropWhile (inRanges caseIgnorableRanges) with
  | c :: _ => inRanges casedRanges c
  | [] => false

/-- Capital sigma, and its two small forms. -/
def capitalSigma : Char := Char.ofNat 0x3A3

def finalSigma : Char := Char.ofNat 0x3C2

def innerSigma : Char := Char.ofNat 0x3C3

/-- Lower case of a text whose characters before `rest` are `before`, nearest first. -/
def lowerFrom (before : List Char) : List Char → List Char
  | [] => []
  | c :: rest =>
    let here :=
      if c = capitalSigma then
        [if startsCased before && !startsCased rest then finalSigma else innerSigma]
      else mapChar lowerExpansions lowerRuns c
    here ++ lowerFrom (c :: before) rest

def lower (s : String) : String :=
  String.ofList (lowerFrom [] s.toList)

def upper (s : String) : String :=
  String.ofList (s.toList.flatMap (mapChar upperExpansions upperRuns))

end Recalc.Text
