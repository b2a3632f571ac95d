import JsonPath.Proofs.Syntax.Grammar
import JsonPath.Proofs.Syntax.Run

/-!
What a parser leaves when it reports nothing. The rules follow a production from one cursor to
the next, of which only the text ahead is kept track of. What may follow a text is given by the
characters that may come next after blanks.
-/

namespace JsonPath

namespace Parser

open Grammar

variable {α β : Type}

/-! ### Blanks -/

theorem isBlank_iff {c : Char} :
    Cursor.isBlank c = true ↔ c = ' ' ∨ c = '\t' ∨ c = '\n' ∨ c = '\r' := by
  simp [Cursor.isBlank, or_assoc]

theorem blanks_space : Blanks [' '] :=
  List.forall_mem_singleton.mpr (.inl rfl)

/-- A text without the blanks in front. -/
def trim (chars : List Char) : List Char := chars.dropWhile Cursor.isBlank

theorem pass_blanks (c : Cursor) : (c.pass c.blanks).rest = trim c.rest :=
  List.append_cancel_left ((List.prefix_iff_eq_append.mp (List.takeWhile_prefix _)).trans
    List.takeWhile_append_dropWhile.symm)

theorem trim_append {b : List Char} (hb : Blanks b) (w : List Char) : trim (b ++ w) = trim w :=
  List.dropWhile_append_of_pos fun c hc => isBlank_iff.mpr (hb c hc)

theorem trim_cons {x : Char} (hx : Cursor.isBlank x = false) (w : List Char) :
    trim (x :: w) = x :: w :=
  List.dropWhile_cons_of_neg (by simp [hx])

@[simp] theorem trim_trim (w : List Char) : trim (trim w) = trim w := by
  have hhead := List.head?_dropWhile_not Cursor.isBlank w
  cases hw : w.dropWhile Cursor.isBlank with
  | nil => rw [trim, trim, hw]; rfl
  | cons x rest =>
    rw [hw] at hhead
    rw [show trim w = x :: rest from hw]
    exact trim_cons (by simpa using hhead) rest

theorem length_trim_le (w : List Char) : (trim w).length ≤ w.length :=
  (List.dropWhile_suffix Cursor.isBlank).length_le

/-- After blanks, if anything comes next, it is one of the characters. -/
def Follow (chars rest : List Char) : Prop := ∀ x, (trim rest).head? = some x → x ∈ chars

namespace Follow

variable {chars chars' rest : List Char}

theorem nil : Follow chars [] := by simp [Follow, trim]

theorem mono (h : Follow chars rest) (hsubset : ∀ x ∈ chars, x ∈ chars') : Follow chars' rest :=
  fun x hx => hsubset x (h x hx)

theorem cons {x : Char} (hx : x ∈ chars) (hblank : Cursor.isBlank x = false) (w : List Char) :
    Follow chars (x :: w) := by
  intro y hy
  rw [trim_cons hblank] at hy
  obtain rfl : x = y := by simpa using hy
  exact hx

theorem before {b : List Char} (hb : Blanks b) (h : Follow chars rest) :
    Follow chars (b ++ rest) := by
  intro x hx
  rw [trim_append hb] at hx
  exact h x hx

/-- What comes next right away is a blank or one of the characters. -/
theorem head (h : Follow chars rest) {x : Char} (hx : rest.head? = some x) :
    x ∈ ' ' :: '\t' :: '\n' :: '\r' :: chars := by
  obtain ⟨w, rfl⟩ := List.head?_eq_some_iff.mp hx
  cases hblank : Cursor.isBlank x with
  | true => rcases isBlank_iff.mp hblank with rfl | rfl | rfl | rfl <;> simp
  | false =>
    have hmem := h x (by rw [trim_cons hblank]; rfl)
    simp [hmem]

end Follow

/-! ### Rules -/

/-- Run from `c`, the parser reports nothing, and something holds of its result and of the text
ahead. -/
structure Accepts (p : Parser α) (c : Cursor) (P : α → List Char → Prop) : Prop where
  clean : (p c).2.faults = c.faults
  result : P (p c).1 (p c).2.rest

theorem isAt_append {c : Cursor} {w v : List Char} (h : c.rest = w ++ v) :
    c.isAt w = true := by
  rw [Cursor.isAt, h, List.isPrefixOf_iff_prefix]
  exact List.prefix_append w v

theorem isAt_of_ne {c : Cursor} {x : Char} {chars : List Char} (h : c.rest.head? ≠ some x) :
    c.isAt (x :: chars) = false := by
  rw [Bool.eq_false_iff]
  intro hat
  obtain ⟨more, hmore⟩ := List.isPrefixOf_iff_prefix.mp hat
  exact h (by rw [← hmore]; rfl)

theorem isAt_second {c : Cursor} {x y : Char} {v : List Char} (hc : c.rest = x :: v)
    (hv : v.head? ≠ some y) : c.isAt [x, y] = false := by
  rw [Bool.eq_false_iff]
  intro hat
  obtain ⟨more, hmore⟩ := List.isPrefixOf_iff_prefix.mp hat
  have heq : y :: more = v := (List.cons.inj (hmore.trans hc)).2
  exact hv (by rw [← heq]; rfl)

namespace Accepts

variable {p : Parser α} {f : α → Parser β} {c : Cursor} {P : α → List Char → Prop}
  {Q : β → List Char → Prop}

theorem pure {a : α} (h : P a c.rest) : Accepts (Pure.pure a) c P := ⟨rfl, h⟩

theorem bind (hp : Accepts p c P) (hf : ∀ a d, P a d.rest → Accepts (f a) d Q) :
    Accepts (p >>= f) c Q := by
  have hnext := hf _ _ hp.result
  exact ⟨hnext.clean.trans hp.clean, hnext.result⟩

theorem mono {P' : α → List Char → Prop} (hp : Accepts p c P) (h : ∀ a rest, P a rest → P' a rest) :
    Accepts p c P' := ⟨hp.clean, h _ _ hp.result⟩

theorem map {g : α → β} (hp : Accepts p c fun a rest => Q (g a) rest) :
    Accepts (g <$> p) c Q := ⟨hp.clean, hp.result⟩

theorem get {f : Cursor → Parser β} (h : Accepts (f c) c Q) :
    Accepts (MonadState.get >>= f) c Q := ⟨h.clean, h.result⟩

theorem peek {f : Option Char → Parser β} (h : Accepts (f c.rest.head?) c Q) :
    Accepts (Parser.peek >>= f) c Q := ⟨h.clean, h.result⟩

theorem isAt {f : Bool → Parser β} {chars : List Char} {b : Bool} (hat : c.isAt chars = b)
    (h : Accepts (f b) c Q) : Accepts (Parser.isAt chars >>= f) c Q := by
  subst hat
  exact ⟨h.clean, h.result⟩

theorem element {f : Nat → Parser β} (h : ∀ id d, d.rest = c.rest → Accepts (f id) d Q) :
    Accepts (freshId >>= f) c Q := by
  have hnext := h c.nextId { c with nextId := c.nextId + 1 } rfl
  exact ⟨hnext.clean, hnext.result⟩

/-- The blanks in front are passed over. -/
theorem skipBlanks {f : Range → Parser β}
    (h : ∀ range d, d.rest = trim c.rest → Accepts (f range) d Q) :
    Accepts (Parser.skipBlanks >>= f) c Q := by
  have hnext := h (c.ahead c.blanks) (c.pass c.blanks) (pass_blanks c)
  exact ⟨hnext.clean, hnext.result⟩

/-- A text that comes next becomes a token. -/
theorem take {f : Token → Parser β} {kind : TokenKind} {count : Nat} {w rest : List Char}
    (hrest : c.rest = w ++ rest) (hcount : count = w.length)
    (h : ∀ t d, t.kind = kind → t.text = String.ofList w → d.rest = rest → Accepts (f t) d Q) :
    Accepts (Parser.take kind count >>= f) c Q := by
  have htake : c.rest.take count = w := by rw [hrest, hcount, List.take_left]
  have hdrop : c.rest.drop count = rest := by rw [hrest, hcount, List.drop_left]
  have hnext := h (Parser.take kind count c).1 (Parser.take kind count c).2 rfl
    (congrArg String.ofList htake) hdrop
  exact ⟨hnext.clean, hnext.result⟩

/-- Looking beyond the blanks that come next, and going on from there. -/
theorem goOn {f : Cursor → Range → Parser β}
    (h : ∀ d range e, e.rest = trim c.rest → Accepts (f d range) e Q) :
    Accepts (do let d ← MonadState.get; let range ← Parser.skipBlanks; f d range) c Q := by
  have hnext := h c (c.ahead c.blanks) (c.pass c.blanks) (pass_blanks c)
  exact ⟨hnext.clean, hnext.result⟩

/-- Looking beyond the blanks that come next, and going back. -/
theorem goBack {f : Cursor → Range → Parser β} {g : Parser β}
    (hback : ∀ d range e, e.rest = trim c.rest →
      f d range e = (set d >>= fun _ : PUnit => g) e) (h : Accepts g c Q) :
    Accepts (do let d ← MonadState.get; let range ← Parser.skipBlanks; f d range) c Q := by
  have heq : (do let d ← MonadState.get; let range ← Parser.skipBlanks; f d range : Parser β) c =
      g c := hback c (c.ahead c.blanks) (c.pass c.blanks) (pass_blanks c)
  exact ⟨by rw [heq]; exact h.clean, by rw [heq]; exact h.result⟩

end Accepts

theorem take_accepts (kind : TokenKind) {c : Cursor} {w rest : List Char}
    (hrest : c.rest = w ++ rest) : Accepts (take kind w.length) c fun _ rest' => rest' = rest :=
  ⟨rfl, by rw [take, Cursor.pass, hrest]; exact List.drop_left⟩

/-- Where no blank comes next, there is none to reject. -/
theorem rejectBlanks_accepts (fault : SyntaxFault) {c : Cursor} (h : trim c.rest = c.rest) :
    Accepts (rejectBlanks fault) c fun _ rest => rest = c.rest := by
  have hblanks : c.blanks = 0 := by
    have hsplit : c.rest.takeWhile Cursor.isBlank ++ trim c.rest = c.rest :=
      List.takeWhile_append_dropWhile
    rw [h] at hsplit
    rw [Cursor.blanks, List.append_left_eq_self.mp hsplit]
    rfl
  have heq : rejectBlanks fault c = ((), c.pass 0) := by
    rw [rejectBlanks, skipBlanks_bind, hblanks, if_neg (by simp [Cursor.ahead, Range.isEmpty])]
    rfl
  exact ⟨by rw [heq]; rfl, by rw [heq]; rfl⟩

/-- Where one of the characters comes next at which to stop, there is no garbage. -/
theorem skipGarbage_accepts {wanted : Wanted} {stops : List Char} {c : Cursor} {x : Char}
    {rest : List Char} (h : c.rest = x :: rest) (hx : x ∈ stops) :
    Accepts (skipGarbage wanted stops) c fun _ rest' => rest' = x :: rest := by
  have heq : skipGarbage wanted stops c = ((), c) := skipGarbage_of_stop h hx
  exact ⟨by rw [heq], by rw [heq]; exact h⟩

end Parser

end JsonPath
