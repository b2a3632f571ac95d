import JsonPath.Environment.Standard
import JsonPath.Proofs.Check.Accepted
import JsonPath.Proofs.Evaluation.Singular
import JsonPath.Proofs.Syntax.RoundTrip

/-!
Normalized texts address locations. The text of a location is the text of a path with one step in
brackets for each step of the location. As this path can be read back, so can the location, and the
query that is read selects what is there and nothing else.
-/

namespace JsonPath

/-- The selector of the step. -/
def Step.selector : Step → Selector
  | .index i => .index 0 (.mark .number "") i
  | .name value => .name 0 (.mark .string "") value

/-- The segment of the step, in brackets. -/
def Step.segment (step : Step) : Segment :=
  .bracketed 0 none (.mark .leftBracket "") (.last step.selector) (.mark .rightBracket "")

/-- The path that goes on with the steps of a location. -/
def Path.extend (p : Path) (l : Location) : Path := l.foldl (fun p step => .step p step.segment) p

/-- The path from the root to a location. -/
def Location.path (l : Location) : Path := (Path.root 0 (.mark .root "")).extend l

/-- All indices are among the whole numbers that doubles hold without gaps. -/
def Location.IsSafe (l : Location) : Prop := ∀ i, Step.index i ∈ l → i ≤ 2 ^ 53 - 1

namespace Step

theorem text_segment (step : Step) : step.segment.text = step.text := by
  cases step with
  | index i =>
    rw [segment, Segment.text, Selectors.text, selector, Selector.text, text]
    rfl
  | name value =>
    rw [segment, Segment.text, Selectors.text, selector, Selector.text, text]
    rfl

theorem single?_segment (step : Step) : step.segment.single? = some step.selector := by
  cases step <;> rfl

theorem step?_selector (step : Step) : step.selector.step? = some step := by
  cases step with
  | index i => simp [selector, Selector.step?]
  | name => rfl

theorem printable_selector {step : Step} (h : ∀ i, step = .index i → i ≤ 2 ^ 53 - 1) :
    step.selector.tree.Printable := by
  have hregular : step.selector.Regular := by
    cases step with
    | index i =>
      have hi := h i rfl
      show -(2 ^ 63) ≤ (i : Int) ∧ (i : Int) ≤ 2 ^ 63 - 1
      omega
    | name => trivial
  have hprintable : (Element.selector step.selector).Printable :=
    ⟨hregular, Element.readsBack_of_none rfl⟩
  cases step with
  | index | name =>
    exact .node hprintable (List.forall_mem_singleton.mpr (Token.printable_leaf _))

theorem printable_segment {step : Step} (h : ∀ i, step = .index i → i ≤ 2 ^ 53 - 1) :
    step.segment.Printable where
  wellFormed := by cases step <;> trivial
  tree := by
    refine .node ⟨trivial, Element.readsBack_of_none rfl⟩ ?_
    have hclosing := Token.printable_leaf (.mark .rightBracket "")
    have hopening := Token.printable_leaf (.mark .leftBracket "")
    simp only [Tree.leaf?, Selectors.trees, List.forall_mem_append, List.forall_mem_cons]
    exact ⟨⟨List.forall_mem_nil _, hopening, printable_selector h, List.forall_mem_nil _⟩, hclosing,
      List.forall_mem_nil _⟩

end Step

theorem Selector.check_of_step? {env : Environment} (hlowest : env.lowest ≤ 0) {s : Selector}
    {step : Step} (h : s.step? = some step)
    (hhighest : ∀ i : Nat, step = .index i → (i : Int) ≤ env.highest) : s.check env = [] := by
  cases s with
  | index id token value =>
    rw [step?] at h
    split at h
    · have hvalue := hhighest value.toNat (Option.some.inj h).symm
      have hrange : ¬(value < env.lowest ∨ env.highest < value) := by omega
      rw [check, checkIndex, if_neg (by simp [hrange])]
    · cases h
  | name | wildcard => rfl
  | slice | filter | missing => cases h

theorem Segment.check_of_single? {env : Environment} {s : Segment} {t : Selector}
    (h : s.single? = some t) : s.check env = t.check env := by
  obtain ⟨-, hselectors, -⟩ := (s.single?_eq_some_iff t).mp h
  cases s with
  | shorthand id dots selector =>
    rw [check, show selector = t by simpa [selectors] using hselectors]
  | bracketed id dots opening ss closing =>
    cases ss with
    | last selector =>
      rw [check, Selectors.check,
        show selector = t by simpa [selectors, Selectors.toList] using hselectors]
    | more selector comma rest =>
      simp [selectors, Selectors.toList, Selectors.toList_ne_nil] at hselectors

namespace Path

theorem text_extend (p : Path) (l : Location) :
    (p.extend l).text = p.text ++ String.join (l.map Step.text) := by
  induction l generalizing p with
  | nil => simp [extend]
  | cons step rest ih =>
    rw [show p.extend (step :: rest) = (Path.step p step.segment).extend rest from rfl, ih, text,
      step.text_segment, List.map_cons, String.join_cons, String.append_assoc]

theorem location?_extend (p : Path) (l : Location) :
    (p.extend l).location? = p.location?.map (· ++ l) := by
  induction l generalizing p with
  | nil => simp [extend]
  | cons step rest ih =>
    have hstep : (Path.step p step.segment).location? = p.location?.map (· ++ [step]) := by
      rw [location?]
      cases p.location? <;> simp [step.single?_segment, step.step?_selector]
    rw [show p.extend (step :: rest) = (Path.step p step.segment).extend rest from rfl, ih, hstep]
    cases p.location? <;> simp

theorem isRelative_extend (p : Path) (l : Location) :
    (p.extend l).isRelative = p.isRelative := by
  induction l generalizing p with
  | nil => rfl
  | cons step rest ih => exact ih (.step p step.segment)

theorem Printable.extend {p : Path} (hp : p.Printable) {l : Location} (hl : l.IsSafe) :
    (p.extend l).Printable := by
  induction l generalizing p with
  | nil => exact hp
  | cons step rest ih =>
    have hsegment : step.segment.Printable := Step.printable_segment fun i hi => hl i (by simp [hi])
    apply ih _ fun i hi => hl i (List.mem_cons_of_mem step hi)
    constructor
    · exact ⟨hp.wellFormed, hsegment.wellFormed⟩
    · simp only [Path.parts, List.forall_mem_append, List.forall_mem_singleton]
      exact ⟨hp.parts, hsegment.tree⟩

/-- Where indices are in range, a path with a location is singular and makes sense. -/
theorem check_of_location? {env : Environment} (hlowest : env.lowest ≤ 0) : (p : Path) →
    {l : Location} → p.location? = some l →
    (∀ i : Nat, Step.index i ∈ l → (i : Int) ≤ env.highest) →
    p.isSingular = true ∧ p.check env = []
  | .root _ _, _, _, _ => ⟨rfl, rfl⟩
  | .step before segment, l, h, hl => by
    rw [location?] at h
    obtain ⟨start, hstart, h⟩ := Option.bind_eq_some_iff.mp h
    obtain ⟨selector, hsingle, h⟩ := Option.bind_eq_some_iff.mp h
    obtain ⟨step, hstep, h⟩ := Option.bind_eq_some_iff.mp h
    obtain rfl := Option.some.inj h
    obtain ⟨hsingular, hbefore⟩ := check_of_location? hlowest before hstart
      fun i hi => hl i (List.mem_append_left _ hi)
    have hselector : selector.check env = [] :=
      Selector.check_of_step? hlowest hstep fun i hi => hl i (by simp [hi])
    have hsegment : segment.check env = [] := (Segment.check_of_single? hsingle).trans hselector
    constructor
    · rw [isSingular, hsingular, Segment.isSingular, hsingle]
      rfl
    · rw [check, hbefore, hsegment]
      rfl

end Path

namespace Location

theorem text_path (l : Location) : l.path.text = l.text := by
  rw [path, Path.text_extend]
  rfl

theorem location?_path (l : Location) : l.path.location? = some l := by
  rw [path, Path.location?_extend]
  rfl

theorem isRelative_path (l : Location) : l.path.isRelative = false :=
  Path.isRelative_extend _ l

theorem printable_path {l : Location} (hl : l.IsSafe) : l.path.Printable := by
  have hroot : (Path.root 0 (.mark .root "")).Printable := by
    constructor
    · trivial
    · exact List.forall_mem_singleton.mpr (Token.printable_leaf _)
  exact hroot.extend hl

/-- The normalized text of a location is read without fault, and the location is read back. -/
theorem parse_text {l : Location} (hl : l.IsSafe) :
    (Query.parse l.text).faults = [] ∧ (Query.parse l.text).path.location? = some l := by
  have hread := Query.parse_text_of_printable (printable_path hl) (isRelative_path l)
  rw [text_path] at hread
  generalize Query.parse l.text = q at hread ⊢
  obtain ⟨hfaults, hcanonical⟩ := hread
  refine ⟨hfaults, ?_⟩
  rw [← q.path.location?_canonical, hcanonical, Path.location?_canonical, location?_path]

theorem text_injective {l l' : Location} (hl : l.IsSafe) (hl' : l'.IsSafe)
    (h : l.text = l'.text) : l = l' := by
  have hlocation := (parse_text hl).2
  rw [h, (parse_text hl').2] at hlocation
  exact (Option.some.inj hlocation).symm

/-- A query for a location finds the node that is there, if there is one. -/
theorem find_of_location? {q : Query} {l : Location} (h : q.path.location? = some l)
    (env : Environment) (document : Json) :
    q.find env document = ((document.at? l).map fun v => ⟨v, l⟩).toList :=
  q.path.follow_node ⟨env, document⟩ (.root document) h

/-- The normalized text of a location is a singular query for this location. It finds nothing but
the node there, and no other location has this text. -/
theorem text_addresses {l : Location} (hl : l.IsSafe) :
    (∃ q, Query.accept .standard l.text = .ok q ∧ q.isSingular = true ∧
      q.path.location? = some l ∧ ∀ (document value : Json), document.at? l = some value →
        q.find .standard document = [⟨value, l⟩]) ∧
    ∀ l' : Location, l'.IsSafe → l'.text = l.text → l' = l := by
  have hread := parse_text hl
  have haccept := @Query.accept_of_faultless .standard l.text
  generalize Query.parse l.text = q at hread haccept
  obtain ⟨hfaults, hlocation⟩ := hread
  have hlowest : Environment.standard.lowest ≤ 0 := by decide
  have hhighest : Environment.standard.highest = 2 ^ 53 - 1 := by decide
  obtain ⟨hsingular, hcheck⟩ := Path.check_of_location? hlowest q.path hlocation fun i hi => by
    have hsafe := hl i hi
    rw [hhighest]
    omega
  refine ⟨⟨q, haccept hfaults hcheck, hsingular, hlocation, fun document value hvalue => ?_⟩,
    fun l' hl' h => text_injective hl' hl h⟩
  rw [find_of_location? hlocation, hvalue]
  rfl

/-- A name with a quote, a backslash and control characters, and the greatest index. -/
theorem text_addresses_escaped :
    let l : Location := [.name "a'\\\n\x01é", .index 9007199254740991]
    l.IsSafe ∧
    (∃ q, Query.accept .standard l.text = .ok q ∧ q.isSingular = true ∧
      q.path.location? = some l ∧ ∀ (document value : Json), document.at? l = some value →
        q.find .standard document = [⟨value, l⟩]) ∧
    ∀ l' : Location, l'.IsSafe → l'.text = l.text → l' = l := by
  intro l
  have hsafe : l.IsSafe := by
    intro i hi
    have hindex : i = 9007199254740991 := by simpa [l] using hi
    omega
  exact ⟨hsafe, text_addresses hsafe⟩

end Location

end JsonPath
