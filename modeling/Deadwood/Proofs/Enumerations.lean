import Deadwood.Proofs.Operands

/-!
# Reading enumerations

Arguments, array elements and the expressions of a sequence are read one after the other with commas between
them.
-/

namespace Deadwood

open Lexeme (headKind)

/-- Whether a token opens an expression of a formula. -/
def TokenKind.opens (k : TokenKind) : Bool :=
  k.opensHead || (UnaryOp.ofKind? k).isSome || (UpdateOp.ofKind? k).isSome

namespace Parser

/-- The lexemes are read as an expression that stands between commas. -/
structure Item (x : List Lexeme) (e : Expr) : Prop where
  opens : (headKind x).opens
  whole : Whole x e

variable {n : Nat} {e : Expr} {x ls rest : List Lexeme} {f : Expr → List Lexeme} {g : Expr → Expr} {es : List Expr}

theorem headKind_append_of_opens (hx : (headKind x).opens) (rest : List Lexeme) :
    headKind (x ++ rest) = headKind x := by
  cases x with
  | nil => cases hx
  | cons => rfl

theorem length_pos_of_opens (hx : (headKind x).opens) : 0 < x.length := by
  cases x with
  | nil => cases hx
  | cons => exact Nat.succ_pos _

/-- What opens an expression closes no list and is no spread element. -/
theorem headKind_ne_of_opens (hx : (headKind x).opens) {k : TokenKind} (hk : k.opens = false) :
    headKind (x ++ rest) ≠ k := by
  rw [headKind_append_of_opens hx]
  rintro rfl
  rw [hk] at hx
  cases hx

theorem Item.opened (h : Item x e) {closing : TokenKind} (hk : closing.opens = false) :
    Gives (isOpen closing) (x ++ rest) true (x ++ rest) :=
  .opened (headKind_ne_of_opens h.opens hk) (headKind_ne_of_opens h.opens rfl)

theorem Item.spreadable (h : Item x e) (hn : 8 * (x ++ rest).length + 6 ≤ n) (hr : (headKind rest).reach ≤ 1) :
    Gives (spreadable (.upTo n)) (x ++ rest) e rest :=
  .bind (.pass (headKind_ne_of_opens h.opens rfl))
    (.no Bool.false_ne_true (assignment_upTo (by omega) (h.whole (n - 1) rest (by omega) hr)))

/-! ### Arguments -/

/-- An item with the comma after it, unless it is the last one. -/
def commaItem (closing : TokenKind) (item : Parser Expr) (items : List Expr) : Parser (List Expr × Bool) := do
  let a ← item
  if (← kind) ≠ closing then expect .comma
  return (a :: items, true)

section CommaItem

variable {closing : TokenKind} {item : Parser Expr} {items : List Expr}

theorem commaItem_last (h : Gives item ls e rest) (hr : headKind rest = closing) :
    Gives (commaItem closing item items) ls (e :: items, true) rest :=
  .bind h (.bind .kind (.no (fun hne => hne hr) .pure))

theorem commaItem_more (h : Gives item ls e (.sign .comma :: rest)) (hc : closing ≠ .comma) :
    Gives (commaItem closing item items) ls (e :: items, true) rest :=
  .bind h (.bind .kind (.yes hc.symm (.bind .expect .pure)))

end CommaItem

theorem commaItems_give (hes : ∀ e ∈ es, Item (f e) (g e)) {m : Nat}
    (hn : 8 * (Lexeme.commas (es.map f) ++ .sign .rightParen :: rest).length + 6 ≤ n)
    (hm : (Lexeme.commas (es.map f) ++ .sign .rightParen :: rest).length ≤ m) (items : List Expr) :
    Gives (many (isOpen .rightParen) (commaItem .rightParen (spreadable (.upTo n))) m items)
      (Lexeme.commas (es.map f) ++ .sign .rightParen :: rest) ((es.map g).reverse ++ items)
      (.sign .rightParen :: rest) := by
  induction es generalizing m items with
  | nil => exact .stop (.closed rfl) m
  | cons e es ih =>
    have he := hes e List.mem_cons_self
    have hpos := length_pos_of_opens he.opens
    have hrev : ((e :: es).map g).reverse ++ items = (es.map g).reverse ++ g e :: items := by simp
    rw [hrev]
    cases es with
    | nil =>
      simp only [List.map_cons, List.map_nil, Lexeme.commas, List.flatMap_nil, List.append_nil] at hn hm ⊢
      rw [List.length_append, List.length_cons] at hm
      refine .more (by omega) (he.opened rfl) (commaItem_last (he.spreadable hn (Nat.zero_le 1)) rfl) ?_
      exact .stop (.closed rfl) _
    | cons e' es =>
      have hcommas : Lexeme.commas ((e :: e' :: es).map f) ++ .sign .rightParen :: rest =
          f e ++ .sign .comma :: (Lexeme.commas ((e' :: es).map f) ++ .sign .rightParen :: rest) := by
        simp [Lexeme.commas]
      rw [hcommas] at hn hm ⊢
      have hstep := he.spreadable hn (Nat.le_refl 1)
      rw [List.length_append, List.length_cons] at hn hm
      refine .more (by omega) (he.opened rfl) (commaItem_more hstep nofun) ?_
      exact ih (fun e he => hes e (List.mem_cons_of_mem _ he)) (by omega) (by omega) _

theorem Args.of_items (hes : ∀ e ∈ es, Item (f e) (g e)) : Args (Lexeme.commas (es.map f)) (es.map g) := by
  intro n rest hn
  refine .bind .expect (.bind (.withIn ?_) (.bind .expect .pure))
  have hlength : (Lexeme.commas (es.map f) ++ .sign .rightParen :: rest).length =
      (Lexeme.commas (es.map f)).length + rest.length + 1 := by
    rw [List.length_append, List.length_cons, Nat.add_assoc]
  have hlist : Gives (many _ (commaItem _ (spreadable (.upTo n))) n []) _ _ (.sign .rightParen :: rest) :=
    commaItems_give hes (by omega) (by omega) []
  rw [List.append_nil] at hlist
  have hgives := hlist.bind (k := fun items => return items.reverse) .pure
  rwa [List.reverse_reverse] at hgives

/-! ### Sequences -/

theorem Whole.phrase (h : Whole x e) : Phrase x e := by
  intro n rest hn hr
  refine .bind (assignment_upTo (by omega) (h (n - 1) rest (by omega) (by omega))) (.bind .kind (.yes ?_ .pure))
  intro hc
  rw [hc] at hr
  exact absurd hr (by decide)

/-- An expression after a comma. -/
def commaStep (sub : Sub) (es : List Expr) : Parser (List Expr × Bool) := do
  next
  return ((← sub.assignment) :: es, true)

/-- A sequence goes on after a comma. -/
def atComma : Parser Bool := do return (← kind) = .comma && !(← failed)

theorem atComma_gives : Gives atComma ls (headKind ls = .comma) ls := by
  intro t s ht
  refine ⟨t, s, ?_, ht⟩
  rw [← ht.kind]
  exact congrArg (·, State.before t s) (Bool.and_true _)

theorem commaSteps_give (hes : ∀ e ∈ es, Item (f e) (g e)) (hr : (headKind rest).reach = 0) {m : Nat}
    (hn : 8 * (es.flatMap (.sign .comma :: f ·) ++ rest).length ≤ n)
    (hm : (es.flatMap (.sign .comma :: f ·) ++ rest).length ≤ m) (items : List Expr) :
    Gives (many atComma (commaStep (.upTo n)) m items) (es.flatMap (.sign .comma :: f ·) ++ rest)
      ((es.map g).reverse ++ items) rest := by
  induction es generalizing m items with
  | nil =>
    have hgo : Gives atComma rest _ rest := atComma_gives
    rw [decide_eq_false fun hc => by rw [hc] at hr; exact absurd hr (by decide)] at hgo
    exact .stop hgo m
  | cons e es ih =>
    have hrev : ((e :: es).map g).reverse ++ items = (es.map g).reverse ++ g e :: items := by simp
    rw [hrev]
    simp only [List.flatMap_cons, List.cons_append, List.append_assoc] at hn hm ⊢
    simp only [List.length_cons, List.length_append] at hn hm
    have hreach : (headKind (es.flatMap (.sign .comma :: f ·) ++ rest)).reach ≤ 1 := by
      cases es with
      | nil => exact hr ▸ Nat.zero_le 1
      | cons => exact Nat.le_refl 1
    have he := (hes e List.mem_cons_self).whole (n - 1) (es.flatMap (.sign .comma :: f ·) ++ rest)
      (by simp only [List.length_append]; omega) hreach
    refine .more (by omega) atComma_gives (.bind .next (.bind (assignment_upTo (by omega) he) .pure)) ?_
    refine ih (fun e he => hes e (List.mem_cons_of_mem _ he)) ?_ ?_ _ <;> rw [List.length_append] <;> omega

theorem Phrase.seq (hes : ∀ e ∈ es, Item (f e) (g e)) (hlength : 2 ≤ es.length) :
    Phrase (Lexeme.commas (es.map f)) (.seq (es.map g)) := by
  intro n rest hn hr
  obtain ⟨e, e', es, rfl⟩ : ∃ e e' es', es = e :: e' :: es' := by
    cases es with
    | nil => simp at hlength
    | cons e es => cases es with
      | nil => simp at hlength
      | cons e' es => exact ⟨e, e', es, rfl⟩
  have hcommas : Lexeme.commas ((e :: e' :: es).map f) ++ rest =
      f e ++ ((e' :: es).flatMap (.sign .comma :: f ·) ++ rest) := by
    simp [Lexeme.commas, List.flatMap_map]
  rw [hcommas] at hn ⊢
  have he := (hes e List.mem_cons_self).whole (n - 1) ((e' :: es).flatMap (.sign .comma :: f ·) ++ rest)
    (by omega) (Nat.le_refl 1)
  rw [List.length_append] at hn
  have hrest := commaSteps_give (fun e he => hes e (List.mem_cons_of_mem _ he)) hr (n := n) (m := n)
    (by omega) (by omega) []
  have hcomma : headKind ((e' :: es).flatMap (.sign .comma :: f ·) ++ rest) = .comma := rfl
  have hgives := hrest.bind (k := fun items => return Expr.seq (g e :: items.reverse)) .pure
  rw [List.append_nil, List.reverse_reverse] at hgives
  exact .bind (assignment_upTo (by omega) he) (.bind .kind (.no (fun hc => hc hcomma) hgives))

/-! ### Array literals -/

/-- Array elements with commas between them, and after the last one if it is left out. -/
def elements (f : Expr → List Lexeme) (es : List Expr) : List Lexeme :=
  Lexeme.commas (es.map f) ++ if es.getLast?.any Expr.isHole then [.sign .comma] else []

theorem elements_hole (hf : f .hole = []) (es : List Expr) :
    elements f (.hole :: es) = .sign .comma :: elements f es := by
  cases es <;> simp [elements, Lexeme.commas, hf, Expr.isHole]

theorem elements_singleton (he : e.isHole = false) : elements f [e] = f e := by
  simp [elements, Lexeme.commas, he]

theorem elements_cons (e e' : Expr) (es : List Expr) :
    elements f (e :: e' :: es) = f e ++ .sign .comma :: elements f (e' :: es) := by
  simp [elements, Lexeme.commas]

/-- The lexemes are read as an element, or there are none and the element is left out. -/
def Element (f : Expr → List Lexeme) (g : Expr → Expr) (e : Expr) : Prop :=
  if e.isHole then f .hole = [] ∧ g .hole = .hole else Item (f e) (g e)

theorem eq_hole_of_isHole (h : e.isHole) : e = .hole := by
  cases e <;> first | rfl | cases h

def arrayElement (sub : Sub) (elems : List Expr) : Parser (List Expr × Bool) := do
  if ← accept .comma then return (.hole :: elems, true)
  commaItem .rightBracket (spreadable sub) elems

theorem elements_give (hes : ∀ e ∈ es, Element f g e) {m : Nat}
    (hn : 8 * (elements f es ++ .sign .rightBracket :: rest).length + 6 ≤ n)
    (hm : (elements f es ++ .sign .rightBracket :: rest).length ≤ m) (items : List Expr) :
    Gives (many (isOpen .rightBracket) (arrayElement (.upTo n)) m items) (elements f es ++ .sign .rightBracket :: rest)
      ((es.map g).reverse ++ items) (.sign .rightBracket :: rest) := by
  induction es generalizing m items with
  | nil => exact .stop (.closed rfl) m
  | cons e es ih =>
    have hrev : ((e :: es).map g).reverse ++ items = (es.map g).reverse ++ g e :: items := by simp
    rw [hrev]
    have hrest : ∀ e ∈ es, Element f g e := fun e he => hes e (List.mem_cons_of_mem _ he)
    have he := hes e List.mem_cons_self
    rw [Element] at he
    split at he
    · next hhole =>
      obtain rfl := eq_hole_of_isHole hhole
      rw [elements_hole he.1, List.cons_append] at hn hm ⊢
      rw [List.length_cons] at hn hm
      rw [he.2]
      exact .more (by omega) (.opened nofun nofun) (.bind (.accept rfl) (.yes rfl .pure))
        (ih hrest (by omega) (by omega) _)
    · next hhole =>
      have hpos := length_pos_of_opens he.opens
      cases es with
      | nil =>
        rw [elements_singleton (Bool.eq_false_iff.2 hhole)] at hn hm ⊢
        rw [List.length_append, List.length_cons] at hm
        refine .more (by omega) (he.opened rfl) (.bind (.pass (headKind_ne_of_opens he.opens rfl))
          (.no Bool.false_ne_true (commaItem_last (he.spreadable hn (Nat.zero_le 1)) rfl))) ?_
        exact .stop (.closed rfl) _
      | cons e' es =>
        rw [elements_cons, List.append_assoc, List.cons_append] at hn hm ⊢
        have hstep := he.spreadable hn (Nat.le_refl 1)
        rw [List.length_append, List.length_cons] at hn hm
        refine .more (by omega) (he.opened rfl) (.bind (.pass (headKind_ne_of_opens he.opens rfl))
          (.no Bool.false_ne_true (commaItem_more hstep nofun))) ?_
        exact ih hrest (by omega) (by omega) _

variable {step : Sub → Expr → Parser (Expr × Bool)}

theorem Trails.array (hes : ∀ e ∈ es, Element f g e) :
    Trails step (.sign .leftBracket :: (elements f es ++ [.sign .rightBracket])) (.array (es.map g)) := by
  refine .of_primary (by decide) fun n rest hn hr => .token fun t ht => ?_
  rw [ht.kind]
  simp only [List.append_assoc, List.cons_append, List.nil_append] at hn ⊢
  rw [List.length_cons] at hn
  have hloop : Gives (many _ (arrayElement (.upTo n)) n []) _ _ (.sign .rightBracket :: rest) :=
    elements_give hes (by omega) (by omega) []
  rw [List.append_nil] at hloop
  have hgives : Gives (arrayLiteral (.upTo n)) _ (.array (es.map g).reverse.reverse) rest :=
    .bind .expect (.bind (.withIn hloop) (.bind .expect .pure))
  rwa [List.reverse_reverse] at hgives

end Parser

end Deadwood
