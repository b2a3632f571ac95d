import JsonPath.Proofs.Json.Precision
import JsonPath.Proofs.Syntax.Written

/-!
The numbers that the literals of a query stand for. In a text without fault every number literal
carries the number of its text: the whole number, or a double that is close to the number written.
A number that is too large to be read carries the number 0 instead, and that is no fault.
-/

namespace JsonPath

open JsonPath.Parser

/-- A number literal: its token and the value that it carries. -/
structure Numeral where
  token : Token
  value : Json

namespace Numeral

/-- The parts of the text. -/
def text (l : Numeral) : NumberText := NumberText.ofChars l.token.text.toList

/-- The literal carries the number that is read from its text, and 0 where none is read because the
number is out of reach. -/
inductive Faithful (l : Numeral) : Prop where
  | read {n : Number} (hread : Json.read l.token.text = .ok (.number n))
      (hvalue : l.value = .number n) (hcarries : l.text.Carries n)
  | replaced {e : Json.ReadError} (hread : Json.read l.token.text = .error e)
      (hfault : e.fault = .numberOutOfRange) (hvalue : l.value = .natural 0)
      (hnonzero : l.text.denoted ≠ 0)
      (hlarge : Double.reach < |l.text.denoted| ∨ 2 ^ 31 ≤ l.text.power)

/-- Whatever the text of a number is, its value is faithful to it. -/
theorem faithful_of_number {l : Numeral} (htext : Grammar.Number l.token.text.toList)
    (hvalue : l.value = numberValue l.token.text) : l.Faithful := by
  have hdigits := NumberText.hasDigits_ofChars l.token.text.toList
  unfold numberValue at hvalue
  cases hnumber : Json.Reader.number? (NumberText.ofChars l.token.text.toList) with
  | some n =>
    have hread := Json.read_number htext hnumber
    rw [hread] at hvalue
    exact .read hread hvalue (NumberText.carries_of_number? hdigits hnumber)
  | none =>
    obtain ⟨e, hread, hfault⟩ := Json.read_number_none htext hnumber
    obtain ⟨hnonzero, hlarge⟩ := Json.Reader.number?_none hdigits hnumber
    rw [hread] at hvalue
    exact .replaced hread hfault hvalue hnonzero hlarge

end Numeral

def Element.numerals : Element → List Numeral
  | .expression (.literal _ t value) => if t.kind = .number then [⟨t, value⟩] else []
  | _ => []

namespace Query

/-- The number literals of the query, in the order in which they are written. -/
def numerals (q : Query) : List Numeral := q.tree.elements.flatMap Element.numerals

theorem numerals_written {source : String} (h : (parse source).faults = []) :
    ∀ l ∈ (parse source).numerals, Grammar.Number l.token.text.toList ∧
      l.value = numberValue l.token.text := by
  intro l hl
  obtain ⟨e, he, hl⟩ := List.mem_flatMap.mp hl
  have hwritten := parse_written h e he
  unfold Element.numerals at hl
  split at hl
  · split at hl
    · rename_i hkind
      obtain rfl := List.mem_singleton.mp hl
      exact hwritten.1 hkind
    · cases hl
  · cases hl

/-- In a text without fault every number literal is spelt as the grammar wants it and carries the
number of its text, unless that is out of reach. -/
theorem parse_numerals {source : String} (h : (parse source).faults = []) :
    ∀ l ∈ (parse source).numerals, Grammar.Number l.token.text.toList ∧ l.Faithful := by
  intro l hl
  obtain ⟨htext, hvalue⟩ := numerals_written h l hl
  exact ⟨htext, Numeral.faithful_of_number htext hvalue⟩

/-- The largest whole number of 64 bits, and a number with all its parts. -/
theorem parse_numerals_mixed :
    (parse "$[?@ < 18446744073709551615 && @ != -1.25e2]").faults = [] ∧
    ((parse "$[?@ < 18446744073709551615 && @ != -1.25e2]").numerals.map fun l => l.token.text) =
      ["18446744073709551615", "-1.25e2"] ∧
    ∀ l ∈ (parse "$[?@ < 18446744073709551615 && @ != -1.25e2]").numerals,
      Grammar.Number l.token.text.toList ∧ l.Faithful := by
  have hfaults : (parse "$[?@ < 18446744073709551615 && @ != -1.25e2]").faults = [] := by
    decide +kernel
  exact ⟨hfaults, by decide +kernel, parse_numerals hfaults⟩

/-- The number that `1e400` denotes. -/
theorem denoted_out_of_reach : (NumberText.ofChars "1e400".toList).denoted = 10 ^ 400 := by
  have hparts : NumberText.ofChars "1e400".toList =
      ⟨false, ['1'], none, some ([], ['4', '0', '0'])⟩ := rfl
  rw [hparts]
  have hsignificand : NumberText.significand ⟨false, ['1'], none, some ([], ['4', '0', '0'])⟩ = 1 :=
    by decide
  have hscale : NumberText.scale ⟨false, ['1'], none, some ([], ['4', '0', '0'])⟩ = 400 := by decide
  rw [NumberText.denoted, hsignificand, hscale, Nat.cast_one, one_mul, zpow_ofNat]
  rfl

/-- A literal that is out of reach is no fault, and carries the number 0. -/
theorem parse_numerals_out_of_reach :
    (parse "$[?@ == 1e400]").faults = [] ∧
    ∃ l ∈ (parse "$[?@ == 1e400]").numerals,
      l.token.text = "1e400" ∧ l.value = .natural 0 ∧ l.text.denoted = 10 ^ 400 := by
  have hfaults : (parse "$[?@ == 1e400]").faults = [] := by decide +kernel
  have htexts : ((parse "$[?@ == 1e400]").numerals.map fun l => l.token.text) = ["1e400"] := by
    decide +kernel
  obtain ⟨l, hl, htext⟩ := List.map_eq_singleton_iff.mp htexts
  have hmem : l ∈ (parse "$[?@ == 1e400]").numerals := hl ▸ List.mem_singleton_self l
  obtain ⟨hnumber, hvalue⟩ := numerals_written hfaults l hmem
  refine ⟨hfaults, l, hmem, htext, ?_, ?_⟩
  · rw [htext] at hnumber hvalue
    obtain ⟨e, hread, -⟩ := Json.read_number_none hnumber (by decide +kernel)
    rw [hvalue, numberValue, hread]
  · rw [Numeral.text, htext]
    exact denoted_out_of_reach

end Query

end JsonPath
