import JsonPath.Proofs.Syntax.Progress

/-!
Reading a query never comes to grief. The checked reading by positions gives for every source the
query that the parser gives, so no slice is taken between characters, the position never goes back
behind a token, and no loop or nested expression goes on without reading. What is reported and
every element of the tree stand at stretches of the source.
-/

namespace JsonPath

namespace Cursor.On

variable {source : List Char} {c : Cursor}

/-- The position is at the end just if nothing is left to read. -/
theorem length_le_offset_iff (h : c.On source) :
    Text.byteLength source ≤ c.offset ↔ c.rest = [] := by
  obtain ⟨before, htext, hoffset⟩ := h.within
  rw [hoffset, htext, Text.byteLength_append (before ++ c.skipped)]
  cases c.rest with
  | nil => simp
  | cons x rest =>
    have := x.utf8Size_pos
    rw [Text.byteLength_cons]
    constructor
    · omega
    · exact fun h => absurd h (List.cons_ne_nil _ _)

end Cursor.On

namespace Scan

variable {source : List Char} {c : Cursor} {filter : Scan Expr} {filter' : Parser Expr}

theorem identifier_follows (c : Cursor) : Follows source identifier Parser.identifier c := by
  have hmissing : Follows source (do Scan.reportFound .root; Scan.missing .root)
      (do Parser.reportFound .root; Parser.missing .root) c :=
    .bind (reportFound_follows _ _) fun _ _ _ _ => .missing _
  refine .peekBoth ?_
  cases hnext : c.rest.head? with
  | none => exact hmissing
  | some x =>
    dsimp only
    by_cases hroot : x = '$'
    · subst hroot
      exact .eat _ (Cursor.byteLength_take_one hnext)
    by_cases hcurrent : x = '@'
    · subst hcurrent
      exact .eat_bind (Cursor.byteLength_take_one hnext) fun _ _ he =>
        .bind (.error _ fun _ => he.spans) fun _ _ _ _ => .pure _
    rw [if_neg hroot, if_neg hcurrent]
    split
    · rename_i heq
      exact absurd (Option.some.inj heq) hroot
    · rename_i heq
      exact absurd (Option.some.inj heq) hcurrent
    · exact hmissing

theorem remainder_follows (htells : filter'.Tells) {rounds : Nat} (rounds' : Nat) (path : Path)
    (hfilter : Below source (c.rest.length + 1) filter filter') (hrounds : c.rest.length < rounds)
    (hrounds' : c.rest.length < rounds') :
    Follows source (remainder filter rounds path) (Parser.remainder filter' rounds' path) c := by
  induction rounds generalizing c rounds' path with
  | zero => omega
  | succ rounds ih =>
    obtain ⟨rounds', rfl⟩ := Nat.exists_eq_add_of_lt hrounds'
    have hle : (c.pass c.blanks).rest.length ≤ c.rest.length := (Cursor.Run.blanks c).length_le
    refine .on fun hc => .position (.skipBoth (.length (.position (.peekNext ?_))))
    have hd := hc.pass c.blanks
    have htrailing := hc.ahead_spans c.blanks
    generalize c.pass c.blanks = d at *
    by_cases hnil : d.rest = []
    · rw [if_pos (hd.length_le_offset_iff.mpr hnil), hnil, List.head?_nil, Option.isNone_none,
        if_pos rfl]
      split
      · exact .bind (.error _ fun _ => ⟨_, htrailing⟩) fun _ _ _ _ => .pure _
      · exact .pure _
    · obtain ⟨x, rest, hrest⟩ := List.exists_cons_of_ne_nil hnil
      rw [if_neg (mt hd.length_le_offset_iff.mp hnil), hrest, List.head?_cons,
        Option.isNone_some, if_neg Bool.false_ne_true]
      refine .bind (skipGarbage_follows _ _ _) fun _ e he hele => .budget (.get (.on fun heon =>
        .bind (segments_follow htells _ _ (hfilter.mono ?_) (Nat.lt_succ_of_le heon.length_le)
          (Nat.le_refl _)) fun found f hf _ => ?_))
      · omega
      have hlt := Parser.garbage_progress htells path hrest (congrArg Prod.snd he).symm
      rw [hf] at hlt
      dsimp only at hlt
      refine .advanced hc (by omega) (ih _ _ (hfilter.mono ?_) ?_ ?_)
      · omega
      · omega
      · omega

theorem query_follows (htells : filter'.Tells)
    (hfilter : Below source (source.length + 1) filter filter') :
    Follows source (query filter) (Query.parser filter') (Cursor.ofChars source) := by
  have hbelow {c : Cursor} (hc : c.rest.length ≤ source.length) :=
    hfilter.mono (Nat.succ_le_succ hc)
  refine .freshId fun id => .freshId fun pathId => .bind (rejectBlanks_follows _ _) fun _ c _ hc =>
    .bind (identifier_follows _) fun identifier d _ hd => ?_
  refine .budget (.get (.on fun hdon => .bind (segments_follow htells _ _
    ((hbelow hdon.length_le).mono (Nat.le_succ _)) (Nat.lt_succ_of_le hdon.length_le)
      (Nat.le_refl _)) fun path e _ he => ?_))
  refine .budget (.get (.on fun heon => .bind (remainder_follows htells _ _
    (hbelow heon.length_le) (Nat.lt_succ_of_le heon.length_le) (Nat.lt_succ_self _))
      fun path f _ hf => ?_))
  have htoken : FollowsAt source (f.pass 0) (token .endOfQuery f.offset)
      (Parser.take .endOfQuery 0) f := .token .endOfQuery 0
  rw [Cursor.pass_zero] at htoken
  exact .position (.bind htoken fun _ _ _ _ => .pure _)

end Scan

namespace Query

/-- Reading by positions ends for every source without a mishap, with the query that the source
holds. -/
theorem scan_agrees (source : String) :
    Scan.Agrees source.toList (.ofChars source.toList)
      (Scan.query (Scan.expressions (source.toList.length + 1)).disjunction source.toList
        ⟨0, 0, 0, []⟩)
      (parser (filterParser source) (.ofChars source.toList)) := by
  have hon := Cursor.On.ofChars source.toList
  exact Scan.query_follows (filterParser_tells source)
    (Scan.expressions_below source.toList _).disjunction hon hon

/-- The query that a run of the parser gives. -/
theorem parse_of_run {source : String} {found : Nat × Path × Token} {last : Cursor}
    (h : parser (filterParser source) (.ofChars source.toList) = (found, last)) :
    parse source =
      { id := found.1
        path := found.2.1
        ending := found.2.2
        faults := last.faults.reverse
        elementCount := last.nextId
        length := Text.byteLength source.toList } := by
  rw [filterParser] at h
  unfold parse
  dsimp only [StateT.run]
  rw [h]

/-- The query that a run of the checked reading gives. -/
theorem scan_of_run {source : String} {found : Nat × Path × Token} {place : Place}
    (h : Scan.query (Scan.expressions (source.toList.length + 1)).disjunction source.toList
      ⟨0, 0, 0, []⟩ = .ok (found, place)) :
    scan source = .ok
      { id := found.1
        path := found.2.1
        ending := found.2.2
        faults := place.faults.reverse
        elementCount := place.nextId
        length := Text.byteLength source.toList } := by
  unfold scan
  dsimp only [StateT.run, ReaderT.run]
  rw [h]
  rfl

theorem scan_eq_parse (source : String) : scan source = .ok (parse source) := by
  have hagrees := scan_agrees source
  cases hrun : parser (filterParser source) (.ofChars source.toList) with
  | mk found last =>
    rw [hrun] at hagrees
    rw [scan_of_run hagrees.eq_ok, parse_of_run hrun]
    rfl

/-- Every source is read to its end. No check of the reading by positions fails, which gives the
same query as the parser, and all that is reported and all parts of the query stand at stretches
of the source. -/
theorem parse_total (source : String) :
    scan source = .ok (parse source) ∧
      (∀ fault ∈ (parse source).faults, ∃ part, fault.range.Spans source.toList part) ∧
      ∀ s : Tree, s.Part (parse source).tree → ∃ part, s.range.Spans source.toList part := by
  refine ⟨scan_eq_parse source, ?_, fun s hs => ?_⟩
  · have hfaults := (scan_agrees source).on.faults
    cases hrun : parser (filterParser source) (.ofChars source.toList) with
    | mk found last =>
      rw [hrun] at hfaults
      rw [parse_of_run hrun]
      exact fun fault hfault => hfaults fault (List.mem_reverse.mp hfault)
  · have htile := (parse_lossless source).2.1
    have hlength := parse_length source
    rw [← String.ofList_toList (s := source), ← Text.byteLength_eq_utf8ByteSize,
      String.ofList_toList] at hlength
    generalize parse source = q at hs htile hlength
    exact q.part_spans htile hlength hs

end Query

end JsonPath
