import JsonPath.Proofs.DataType.Heedless
import JsonPath.Typing.Elements

/-!
Notes do not influence the types of the elements of a query. With all notes erased from the types
of the document and of the functions each element gets its type without notes, and a filter leaves
the type of the candidates without notes.
-/

namespace JsonPath

open DataType (Heedless)

namespace DataType

@[simp] theorem bare_present (t : DataType) : t.present.bare = t.bare.present :=
  bare_subtract t nothing

@[simp] theorem bare_elements (t : DataType) : t.elements.bare = t.bare.elements := by
  refine (heedless_mapMembers (fun t => ?_) t).symm
  cases t with
  | array front rest minimum notes =>
    exact heedless_memberChildren (array front rest minimum notes)
  | any | never | literal | primitive | object | union => rfl

/-- The type of a value has no notes. -/
@[simp] theorem bare_ofJson (v : Json) : (ofJson v).bare = ofJson v := by
  induction v using Json.parts_induction with
  | null | bool | number | string => rfl
  | array items ih =>
    have hitems : (ofItems items).map bare = ofItems items := by
      induction items with
      | nil => rfl
      | cons v rest ihrest =>
        rw [ofItems, List.map_cons, ih v List.mem_cons_self,
          ihrest fun w hw => ih w (List.mem_cons_of_mem _ hw)]
    rw [ofJson, bare_ofArray, hitems]
    rfl
  | object members ih =>
    have hmembers : (ofMembers members).map (fun p => (p.1, p.2.bare)) = ofMembers members := by
      induction members with
      | nil => rfl
      | cons p rest ihrest =>
        rw [ofMembers, List.map_cons, ih p List.mem_cons_self,
          ihrest fun q hq => ih q (List.mem_cons_of_mem _ hq)]
    rw [ofJson, bare_ofObject, hmembers]
    rfl

theorem heedless_intersect_right (t : DataType) : Heedless (·.intersect t) (·.intersect t.bare) :=
  fun u => (bare_intersect u t).symm

theorem heedless_subtract_right (t : DataType) : Heedless (·.subtract t) (·.subtract t.bare) :=
  fun u => (bare_subtract u t).symm

end DataType

section Narrowing

variable (l : Location) (assume : Bool)

theorem bare_narrowComparison (op : Comparison) (other t : DataType) :
    (narrowComparison l op other assume t).bare =
      narrowComparison l op other.bare assume t.bare := by
  have hintersect := DataType.heedless_changeAt (DataType.heedless_intersect_right other) l t
  have hsubtract := DataType.heedless_changeAt (DataType.heedless_subtract_right other) l t
  have hequality (equal : Bool) :
      (if equal then
        if other.mayBeNothing then DataType.changeAt (·.intersect other) l t
        else DataType.presentAt l (DataType.changeAt (·.intersect other) l t)
      else if other.isSingleton then DataType.changeAt (·.subtract other) l t else t).bare =
      if equal then
        if other.bare.mayBeNothing then DataType.changeAt (·.intersect other.bare) l t.bare
        else DataType.presentAt l (DataType.changeAt (·.intersect other.bare) l t.bare)
      else if other.bare.isSingleton then DataType.changeAt (·.subtract other.bare) l t.bare
      else t.bare := by
    rw [hintersect, hsubtract, DataType.mayBeNothing_bare, DataType.isSingleton_bare]
    split
    · split
      · rfl
      · exact DataType.bare_presentAt l _
    · split <;> rfl
  have horder : (if assume then DataType.presentAt l t else t).bare =
      if assume then DataType.presentAt l t.bare else t.bare := by
    split
    · exact DataType.bare_presentAt l t
    · rfl
  cases op with
  | equal => exact hequality assume
  | notEqual => exact hequality !assume
  | less | lessOrEqual | greater | greaterOrEqual => exact horder

theorem bare_narrowExistence (t : DataType) :
    (narrowExistence l assume t).bare = narrowExistence l assume t.bare := by
  unfold narrowExistence
  split
  · exact DataType.bare_presentAt l t
  · exact (DataType.heedless_changeAt (DataType.heedless_intersect_right DataType.nothing) l t).symm

theorem bare_narrowTogether (all : Bool) (t : DataType) (others : List DataType) :
    (narrowTogether all t others).bare = narrowTogether all t.bare (others.map DataType.bare) := by
  unfold narrowTogether
  split
  · induction others generalizing t with
    | nil => rfl
    | cons u rest ih =>
      rw [List.foldl_cons, ih, DataType.bare_intersect, List.map_cons, List.foldl_cons]
  · exact DataType.bare_unionOf (t :: others)

end Narrowing

/-- The functions with the types of their results without notes. -/
def Environment.bare (env : Environment) : Environment :=
  { env with functions := env.functions.map fun p => (p.1, { p.2 with type := p.2.type.bare }) }

theorem Environment.function?_bare (env : Environment) (name : String) :
    env.bare.function? name =
      (env.function? name).map fun f => { f with type := f.type.bare } := by
  unfold Environment.function? Environment.bare
  induction env.functions with
  | nil => rfl
  | cons p rest ih =>
    rw [List.map_cons, Fields.get?, Fields.get?, ih]
    split <;> rfl

/-- The types and functions of a scope without notes. -/
def TypeScope.bare (s : TypeScope) : TypeScope := ⟨s.environment.bare, s.root.bare, s.current.bare⟩

@[simp] theorem Path.bare_seedType (s : TypeScope) (p : Path) :
    (p.seedType s).bare = p.seedType s.bare := by
  unfold seedType
  split <;> rfl

@[simp] theorem Segment.bare_incoming (before : DataType) (segment : Segment) :
    (segment.incoming before).bare = segment.incoming before.bare := by
  unfold incoming
  split
  · rw [DataType.bare_unionOf, List.map_cons, List.map_cons, List.map_nil,
      DataType.bare_descendants]
  · rfl

mutual

theorem Path.bare_type (s : TypeScope) : (p : Path) → (p.type s).bare = p.type s.bare
  | .root _ _ => Path.bare_seedType s _
  | .step before segment => by
    rw [Path.type, Path.type, segment.bare_type, segment.bare_incoming, before.bare_type]

theorem Segment.bare_type (s : TypeScope) (incoming : DataType) : (segment : Segment) →
    (segment.type s incoming).bare = segment.type s.bare incoming.bare
  | .shorthand _ _ selector => by
    rw [Segment.type, Segment.type, DataType.bare_unionOf, List.map_cons, List.map_nil,
      selector.bare_type]
  | .bracketed _ _ _ selectors _ => by
    rw [Segment.type, Segment.type, DataType.bare_unionOf, selectors.bare_types]

theorem Selectors.bare_types (s : TypeScope) (incoming : DataType) : (selectors : Selectors) →
    (selectors.types s incoming).map DataType.bare = selectors.types s.bare incoming.bare
  | .last selector => by
    rw [Selectors.types, Selectors.types, List.map_cons, List.map_nil, selector.bare_type]
  | .more selector _ rest => by
    rw [Selectors.types, Selectors.types, List.map_cons, selector.bare_type, rest.bare_types]

theorem Selector.bare_type (s : TypeScope) (incoming : DataType) : (selector : Selector) →
    (selector.type s incoming).bare = selector.type s.bare incoming.bare
  | .name _ _ _ => by simp only [Selector.type, DataType.bare_present, DataType.bare_atStep]
  | .index _ _ value => by
    rw [Selector.type, Selector.type]
    split
    · rw [DataType.bare_present, DataType.bare_atStep]
    · exact DataType.bare_elements incoming
  | .slice _ _ _ _ _ => DataType.bare_elements incoming
  | .wildcard _ _ => DataType.bare_children incoming
  | .filter _ _ test => by
    rw [Selector.type, Selector.type, test.bare_narrow, TypeScope.bare, DataType.bare_children]
    rfl
  | .missing _ _ => rfl

theorem Expr.bare_type (s : TypeScope) : (e : Expr) → (e.type s).bare = e.type s.bare
  | .literal _ _ v => DataType.bare_ofJson v
  | .path _ p => p.bare_type s
  | .call _ name _ _ _ => by
    rw [Expr.type, Expr.type, TypeScope.bare, Environment.function?_bare]
    cases s.environment.function? name.text <;> rfl
  | .missing _ _ => rfl
  | .or .. | .and .. | .not .. | .comparison .. | .parens .. => rfl

theorem Expr.bare_narrow (s : TypeScope) (assume : Bool) (t : DataType) : (e : Expr) →
    (e.narrow s assume t).bare = e.narrow s.bare assume t.bare
  | .and _ first _ rest | .or _ first _ rest => by
    rw [Expr.narrow, Expr.narrow, bare_narrowTogether, first.bare_narrow, rest.bare_narrowEach]
  | .not _ _ inner => inner.bare_narrow s (!assume) t
  | .parens _ _ inner _ => inner.bare_narrow s assume t
  | .comparison _ left _ op right => by
    rw [Expr.narrow, Expr.narrow, ← left.bare_type, ← right.bare_type]
    cases left.relativeLocation? with
    | some l => exact bare_narrowComparison l assume op _ t
    | none =>
      cases right.relativeLocation? with
      | some l => exact bare_narrowComparison l assume op.mirror _ t
      | none => rfl
  | .path _ p => by
    rw [Expr.narrow, Expr.narrow]
    cases p.relativeLocation? with
    | some l => exact bare_narrowExistence l assume t
    | none => rfl
  | .call .. | .literal .. | .missing .. => rfl

theorem Operands.bare_narrowEach (s : TypeScope) (assume : Bool) (t : DataType) :
    (os : Operands) → (os.narrowEach s assume t).map DataType.bare =
      os.narrowEach s.bare assume t.bare
  | .last operand => by
    rw [Operands.narrowEach, Operands.narrowEach, List.map_cons, List.map_nil, operand.bare_narrow]
  | .more operand _ rest => by
    rw [Operands.narrowEach, Operands.narrowEach, List.map_cons, operand.bare_narrow,
      rest.bare_narrowEach]

end

namespace Typed

/-- The element with its types without notes. -/
def bare (e : Typed) : Typed := ⟨e.element, e.incoming.map DataType.bare, e.type.bare⟩

@[simp] theorem bare_mk (e : Element) (incoming : Option DataType) (t : DataType) :
    (Typed.mk e incoming t).bare = ⟨e, incoming.map DataType.bare, t.bare⟩ := rfl

@[simp] theorem bare_token (t : DataType) (token : Token) :
    (Typed.token t token).bare = .token t.bare token := rfl

@[simp] theorem bare_expression (s : TypeScope) (e : Expr) :
    (Typed.expression s e).bare = .expression s.bare e := by
  rw [Typed.expression, Typed.expression, bare, e.bare_type]
  rfl

@[simp] theorem bare_comp_token (t : DataType) : bare ∘ Typed.token t = .token t.bare := rfl

end Typed

mutual

theorem Path.bare_typed (s : TypeScope) : (p : Path) →
    (p.typed s).map Typed.bare = p.typed s.bare
  | .root _ _ => by simp [Path.typed]
  | .step before segment => by
    simp [Path.typed, before.bare_typed, segment.bare_typed, before.bare_type]

theorem Segment.bare_typed (s : TypeScope) (incoming : DataType) : (segment : Segment) →
    (segment.typed s incoming).map Typed.bare = segment.typed s.bare incoming.bare
  | .shorthand id dots selector => by
    simp [Segment.typed, selector.bare_typed, Segment.bare_type]
  | .bracketed id dots opening selectors closing => by
    simp [Segment.typed, selectors.bare_typed, Segment.bare_type]

theorem Selectors.bare_typed (s : TypeScope) (incoming whole : DataType) :
    (selectors : Selectors) →
    (selectors.typed s incoming whole).map Typed.bare =
      selectors.typed s.bare incoming.bare whole.bare
  | .last selector => selector.bare_typed s incoming
  | .more selector _ rest => by
    simp [Selectors.typed, selector.bare_typed, rest.bare_typed]

theorem Selector.bare_typed (s : TypeScope) (incoming : DataType) : (selector : Selector) →
    (selector.typed s incoming).map Typed.bare = selector.typed s.bare incoming.bare
  | .filter id question test => by
    simp [Selector.typed, test.bare_typed, Selector.bare_type, TypeScope.bare]
  | .name .. | .index .. | .slice .. | .wildcard .. | .missing .. => by
    simp [Selector.typed, Selector.bare_type]

theorem Expr.bare_typed (s : TypeScope) : (e : Expr) →
    (e.typed s).map Typed.bare = e.typed s.bare
  | .or _ first _ rest | .and _ first _ rest => by
    simp [Expr.typed, first.bare_typed, rest.bare_typed, Expr.bare_type]
  | .not _ _ inner | .parens _ _ inner _ => by
    simp [Expr.typed, inner.bare_typed, Expr.bare_type]
  | .comparison _ left _ _ right => by
    simp [Expr.typed, left.bare_typed, right.bare_typed, Expr.bare_type]
  | .path _ p => by simp [Expr.typed, p.bare_typed, p.bare_type]
  | .call _ _ _ arguments _ => by simp [Expr.typed, arguments.bare_typed, Expr.bare_type]
  | .literal .. | .missing .. => by simp [Expr.typed, Expr.bare_type]

theorem Operands.bare_typed (s : TypeScope) (whole : DataType) : (os : Operands) →
    (os.typed s whole).map Typed.bare = os.typed s.bare whole.bare
  | .last operand => operand.bare_typed s
  | .more operand _ rest => by simp [Operands.typed, operand.bare_typed, rest.bare_typed]

theorem Arguments.bare_typed (s : TypeScope) (whole : DataType) : (as : Arguments) →
    (as.typed s whole).map Typed.bare = as.typed s.bare whole.bare
  | .none => rfl
  | .some operands => operands.bare_typed s whole

end

namespace Query

theorem bare_typed (q : Query) (environment : Environment) (root : DataType) :
    (q.typed environment root).map Typed.bare = q.typed environment.bare root.bare := by
  simp [typed, q.path.bare_typed, q.path.bare_type, TypeScope.bare]

theorem bare_typeOf? (q : Query) (environment : Environment) (root : DataType) (id : Nat) :
    (q.typeOf? environment root id).map DataType.bare =
      q.typeOf? environment.bare root.bare id := by
  rw [typeOf?, typeOf?, ← q.bare_typed, List.find?_map, Option.map_map, Option.map_map]
  rfl

end Query

open DataType in
/-- It makes no difference whether notes are erased before or after types are computed. The second
operation on types does what the first does, without heed of notes. -/
structure NotesErased (f g : DataType → DataType) : Prop where
  unionOf (ts : List DataType) : (unionOf ts).bare = unionOf (ts.map bare)
  intersect (t u : DataType) : (t.intersect u).bare = t.bare.intersect u.bare
  subtract (t u : DataType) : (t.subtract u).bare = t.bare.subtract u.bare
  isSubtypeOf (t u : DataType) : t.isSubtypeOf u = t.bare.isSubtypeOf u.bare
  same (t u : DataType) : t.same u = t.bare.same u.bare
  atLocation (t : DataType) (l : Location) : (t.atLocation l).bare = t.bare.atLocation l
  changeAt (l : Location) (t : DataType) : (changeAt f l t).bare = changeAt g l t.bare
  presentAt (l : Location) (t : DataType) : (presentAt l t).bare = presentAt l t.bare
  children (t : DataType) : t.children.bare = t.bare.children
  descendants (t : DataType) : t.descendants.bare = t.bare.descendants
  typeOf? (q : Query) (environment : Environment) (root : DataType) (id : Nat) :
    (q.typeOf? environment root id).map bare = q.typeOf? environment.bare root.bare id
  narrow (s : TypeScope) (assume : Bool) (e : Expr) (t : DataType) :
    (e.narrow s assume t).bare = e.narrow s.bare assume t.bare

/-- Notes never influence types, wherever they are: those of the document, of the functions or of
what is computed from them. -/
theorem notes_never_influence_types {f g : DataType → DataType} (h : Heedless f g) :
    NotesErased f g where
  unionOf := DataType.bare_unionOf
  intersect := DataType.bare_intersect
  subtract := DataType.bare_subtract
  isSubtypeOf t u := by rw [DataType.isSubtypeOf_bare_left, DataType.isSubtypeOf_bare_right]
  same t u := (DataType.same_bare t u).symm
  atLocation := DataType.bare_atLocation
  changeAt l t := (DataType.heedless_changeAt h l t).symm
  presentAt := DataType.bare_presentAt
  children := DataType.bare_children
  descendants := DataType.bare_descendants
  typeOf? := Query.bare_typeOf?
  narrow s assume e t := e.bare_narrow s assume t

open DataType in
theorem notes_never_influence_types_count :
    (changeAt (·.intersect (primitive .number { title := some "count" })) [.name "n"]
      (object [("n", any { description := some "how many" })] bottom ["n"]
        { deprecated := true })).bare =
      object [("n", ofPrimitive .number)] bottom ["n"] {} :=
  (notes_never_influence_types
    (heedless_intersect_right (primitive .number { title := some "count" }))).changeAt _ _

end JsonPath
