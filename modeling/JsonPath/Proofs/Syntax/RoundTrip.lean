import JsonPath.Proofs.Evaluation.Canonical
import JsonPath.Proofs.Syntax.Rereading

/-!
The canonical text of a query is read back. A query without fault and the query that its canonical
text holds have one canonical form, hence one canonical text and the same nodes in every document.
All that is asked for is that the numbers among its literals are not lost when they are printed.
-/

namespace JsonPath

namespace Query

theorem body_rereads {filter : Parser Expr} {c : Cursor} {bound : Nat}
    (hfilter : filter.Rereads 2 Parser.afterExpression bound) {p : Path} (hp : p.Printable)
    (habsolute : p.isRelative = false) (hc : c.rest = p.text.toList)
    (hbound : c.rest.length ≤ bound) :
    Parser.Accepts (body filter) c fun found _ => found.2.canonical = p.canonical := by
  have hlength := congrArg List.length hc
  rw [p.toList_text, habsolute, if_neg Bool.false_ne_true] at hc hlength
  refine body_accepts_of (P := fun p' => p'.canonical = p.canonical) hc
    fun pathId identifier d hkind hd => ?_
  have hidentifier : identifier.kind = p.identifierKind := by
    rw [hkind, Path.identifierKind, habsolute]
    rfl
  have hfollow := hd.trans (List.append_nil _).symm
  refine (Parser.segments_rereads hfilter hp.segments (Path.canonical_root hidentifier pathId 0)
    hfollow Parser.endsSegments_nil (Nat.le_refl _) ?_).mono ?_
  · rw [hd]
    rw [List.length_cons] at hlength
    omega
  · rintro path rest' ⟨hpath, hrest'⟩
    exact ⟨hpath.trans (p.canonical_segments 0), hrest'⟩

theorem filterParser_rereads (source : String) :
    (filterParser source).Rereads 2 Parser.afterExpression (source.toList.length + 1) :=
  (Parser.expressions_reread _).disjunction

/-- The text of a printable path is read without fault, as a path of the same canonical form. -/
theorem parse_text_of_printable {p : Path} (hp : p.Printable) (habsolute : p.isRelative = false) :
    (parse p.text).faults = [] ∧ (parse p.text).path.canonical = p.canonical := by
  have haccepts := body_rereads (c := .ofChars p.text.toList) (filterParser_rereads p.text) hp
    habsolute rfl (Nat.le_succ _)
  rw [parse_faults, List.reverse_eq_nil_iff, parse_path]
  exact ⟨haccepts.clean, haccepts.result⟩

theorem printable_path {q : Query} (hwf : q.path.WellFormed) (hregular : q.tree.Regular)
    (hnumbers : q.tree.All Element.ReadsBack) : q.path.Printable := by
  have hparts {P : Element → Prop} (h : q.tree.All P) : ∀ t ∈ q.path.parts, t.All P := by
    obtain ⟨-, hchildren⟩ := Tree.all_node.mp h
    simp only [List.forall_mem_cons] at hchildren
    exact (Tree.all_node.mp hchildren.1).2
  exact ⟨hwf, fun t ht x hx => ⟨hparts hregular t ht x hx, hparts hnumbers t ht x hx⟩⟩

/-- The canonical text of a query without fault is again without fault. It is its own canonical
text, and selects the same nodes in the same order. -/
theorem parse_text_roundTrip {source : String} (hfaults : (parse source).faults = [])
    (hnumbers : (parse source).tree.All Element.ReadsBack) :
    (parse (parse source).text).faults = [] ∧
    (parse (parse source).text).text = (parse source).text ∧
    ∀ (environment : Environment) (document : Json),
      (parse (parse source).text).find environment document =
        (parse source).find environment document := by
  have hsound := @parse_sound source
  have habsolute := @parse_isRelative source
  have hregular := parse_regular source
  generalize parse source = q at hfaults hnumbers hsound habsolute hregular ⊢
  have hprintable := printable_path (hsound hfaults).2 hregular hnumbers
  obtain ⟨hclean, hcanonical⟩ := parse_text_of_printable hprintable (habsolute hfaults)
  exact ⟨hclean, text_eq_of_canonical hcanonical, find_eq_of_canonical hcanonical⟩

/-- Names, escapes, slices, operators of all ranks and numbers in one query. -/
theorem parse_text_roundTrip_operators :
    let source := "$..['a\\'', 1:][?!(@.b<=-1.5e3||$.c=='x')&&match(@.d,'y')].e"
    (parse source).faults = [] ∧ (parse source).tree.All Element.ReadsBack ∧
    (parse (parse source).text).faults = [] ∧
    (parse (parse source).text).text = (parse source).text ∧
    ∀ (environment : Environment) (document : Json),
      (parse (parse source).text).find environment document =
        (parse source).find environment document := by
  intro source
  have hfaults : (parse source).faults = [] := by decide +kernel
  have hnumbers : (parse source).tree.All Element.ReadsBack := by decide +kernel
  exact ⟨hfaults, hnumbers, parse_text_roundTrip hfaults hnumbers⟩

end Query

end JsonPath
