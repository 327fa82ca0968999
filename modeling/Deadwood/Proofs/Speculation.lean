import Deadwood.Proofs.Enumerations
import Deadwood.Proofs.Backtracking

/-!
# Trying arrow functions

Before an expression the parser tries to read the parameters of an arrow function, and goes back if it finds a
fault or no arrow after them.  A formula can look like parameters for a while.  But where it does, it is read
up to a place in the formula, and no arrow stands there.
-/

namespace Deadwood.Parser

open Lexeme (headKind)

variable {α β : Type} {m : Parser α} {k : α → Parser β} {P P' : Token → Prop} {Q Q' : α → Token → Prop}
  {R : β → Token → Prop} {a : α} {ls mid rest : List Lexeme}

/-- Where `P` holds of the token, the parser finds a fault or comes to a token of which `Q` holds. -/
def Tries (P : Token → Prop) (m : Parser α) (Q : α → Token → Prop) : Prop :=
  ∀ t s, P t → 0 < (m (.before t s)).2.faults.length ∨ ∃ a t' s', m (.before t s) = (a, .before t' s') ∧ Q a t'

namespace Tries

theorem mono (h : Tries P m Q) (hQ : ∀ a t, Q a t → Q' a t) : Tries P m Q' := by
  intro t s ht
  refine (h t s ht).imp_right fun ⟨a, t', s', hrun, ha⟩ => ⟨a, t', s', hrun, hQ a t' ha⟩

theorem or (h : Tries P m Q) (h' : Tries P' m Q) : Tries (fun t => P t ∨ P' t) m Q :=
  fun t s ht => ht.elim (h t s) (h' t s)

theorem bind (hm : Tries P m Q) (hk : ∀ a, Tries (Q a) (k a) R) (hs : ∀ a, (k a).Steady) :
    Tries P (m >>= k) R := by
  intro t s ht
  obtain hfault | ⟨a, t', s', hrun, ha⟩ := hm t s ht
  · exact .inl (Nat.lt_of_lt_of_le hfault ((hs _).faults_le _))
  · rw [run_bind, hrun]
    exact hk a t' s' ha

/-- What is read exactly comes first. -/
theorem after (hm : Gives m ls a mid) (hk : Tries (·.Reads mid) (k a) R) : Tries (·.Reads ls) (m >>= k) R := by
  intro t s ht
  obtain ⟨t', s', hrun, ht'⟩ := hm t s ht
  rw [run_bind, hrun]
  exact hk t' s' ht'

theorem of_gives (hm : Gives m ls a rest) : Tries (·.Reads ls) m fun b t => b = a ∧ t.Reads rest := by
  intro t s ht
  obtain ⟨t', s', hrun, ht'⟩ := hm t s ht
  exact .inr ⟨a, t', s', hrun, rfl, ht'⟩

/-- A parser that always finds a fault. -/
theorem fault (h : m.Yields fun _ _ => False) : Tries P m Q := by
  refine fun t s _ => .inl (Nat.pos_of_ne_zero fun hzero => ?_)
  exact h.result (.before t s) hzero

theorem pure (h : ∀ t, P t → Q a t) : Tries P (pure a) Q := fun t s ht => .inr ⟨a, t, s, rfl, h t ht⟩

theorem withIn (h : Tries P m Q) : Tries P (withIn m) Q := by
  intro t s ht
  have hrun : Parser.withIn m (.before t s) =
      ((m (.before t s)).1, (changeScopes (.change (Setting.allowIn.put true)) (m (.before t s)).2).2) := rfl
  rw [hrun]
  refine (h t s ht).imp_right fun ⟨a, t', s', hm, ha⟩ => ⟨a, t', s', by rw [hm]; rfl, ha⟩

/-- The parser goes one way because the token is of no kind that would take it the other way. -/
theorem other {c : TokenKind} {m n : Parser β} (h : ∀ t, P t → t.kind ≠ c) (hm : Tries P m R) :
    Tries P (do if (← Parser.kind) ≠ c then m else n) R := by
  intro t s ht
  have hrun : (do if (← Parser.kind) ≠ c then m else n) (.before t s) =
      (if t.kind ≠ c then m else n) (.before t s) := rfl
  rw [hrun, if_pos (h t ht)]
  exact hm t s ht

theorem expect {c : TokenKind} {Q : Unit → Token → Prop} (h : ∀ t, P t → t.kind ≠ c) : Tries P (expect c) Q :=
  .other h (.fault (.faulty unexpectedHere_yields next_steady))

section Branches

variable {c : Prop} [Decidable c] {n : Parser α}

theorem yes (hc : c) (hm : Tries P m Q) : Tries P (if c then m else n) Q := by rwa [if_pos hc]

theorem no (hc : ¬ c) (hn : Tries P n Q) : Tries P (if c then m else n) Q := by rwa [if_neg hc]

end Branches

/-- A step of a loop that goes on. -/
theorem more {go : Parser Bool} {step : α → Parser (α × Bool)} {n : Nat} (hgo : Gives go ls true ls)
    (hstep : Tries (·.Reads ls) (step a) fun r t => r.2 = true ∧ P' t)
    (hloop : ∀ b, Tries P' (many go step n b) Q) (hs : ∀ b, (many go step n b).Steady) :
    Tries (·.Reads ls) (many go step (n + 1) a) Q := by
  refine .after hgo (hstep.bind (fun r => ?_) fun r => .ite (fun _ => hs _) fun _ => .pure fun _ => trivial)
  obtain ⟨b, more⟩ := r
  rintro t s ⟨rfl, ht⟩
  exact hloop b t s ht

end Tries

/-! ### Names of bindings -/

/-- Whether a token may be a name that a declaration binds. -/
def namesBinding : TokenKind → Bool
  | .name | .awaitKw | .yieldKw => true
  | _ => false

/-- Whether a token may open what a declaration binds. -/
def opensBinding (k : TokenKind) : Bool := namesBinding k || k = .leftBracket || k = .leftBrace

theorem namesBinding_of_opensBinding {k : TokenKind} (h : opensBinding k = false) : namesBinding k = false := by
  rw [opensBinding, Bool.or_eq_false_iff, Bool.or_eq_false_iff] at h
  exact h.1.1

variable {n : Nat} {w : String} {x y z : List Lexeme}

theorem isBindingName_word (hw : TokenKind.ofWord? w = none) (hp : isPrivate w = false) :
    Gives isBindingName (.word w :: rest) true (.word w :: rest) := by
  refine .token fun t ht => .bind .context ?_
  have hk : t.kind = .name := by rw [ht.kind, Lexeme.headKind_cons, Lexeme.kind, hw]; rfl
  rw [hk, ht.1.2.1, hp]
  exact .pure

theorem isBindingName_none (h : namesBinding (headKind ls) = false) : Gives isBindingName ls false ls := by
  refine .token fun t ht => .bind .context ?_
  rw [ht.kind]
  split
  all_goals first | exact .pure | exact absurd h (by simp only [*]; decide)

theorem target_word (hw : TokenKind.ofWord? w = none) (hp : isPrivate w = false) {sub : Sub} :
    Gives (target sub) (.word w :: rest) (.ident { name := w }) rest := by
  refine .bind .kind ?_
  rw [Lexeme.headKind_cons, Lexeme.kind, hw]
  exact .bind (isBindingName_word hw hp) (.yes rfl (.bind (.identifier hw) .pure))

theorem target_fault (h : opensBinding (headKind ls) = false) {sub : Sub} {Q : Pattern → Token → Prop} :
    Tries (·.Reads ls) (target sub) Q := by
  refine .after .kind ?_
  split
  · exact absurd h (by simp only [*]; decide)
  · exact absurd h (by simp only [*]; decide)
  · refine .after (isBindingName_none (namesBinding_of_opensBinding h))
      (.no Bool.false_ne_true (.fault (.faulty unexpectedHere_yields ?_)))
    exact next_steady.seq fun _ => .pure fun _ => trivial

/-! ### Elements of patterns -/

theorem sounds_upTo (n : Nat) : (Sub.upTo n).Sounds fun _ => True := runGoal_sounds (fun _ => trivial) n

/-- A token after which no list of bindings goes on or ends. -/
def Stuck (t : Token) : Prop := t.kind ≠ .comma ∧ t.kind ≠ .rightParen ∧ t.kind ≠ .rightBracket

/-- What the parser comes to where it tries to read a binding, if it finds no fault. -/
def Binds (ls : List Lexeme) (Q : Token → Prop) : Prop :=
  ∀ n, 8 * ls.length + 6 ≤ n → Tries (·.Reads ls) (bindingElement (.upTo n)) fun _ => Q

/-- No list of bindings goes on where a binding ends in the lexemes. -/
def Blocked (x : List Lexeme) : Prop := ∀ rest, Binds (x ++ rest) Stuck

/-- The lexemes are taken for a binding as a whole, unless they are blocked or given a default. -/
def Stops (x : List Lexeme) : Prop :=
  ∀ rest, headKind rest ≠ .assign → Binds (x ++ rest) fun t => t.Reads rest ∨ Stuck t

/-- The lexemes are taken for a binding as a whole in a list, unless they are blocked. -/
def Guess (x : List Lexeme) : Prop :=
  ∀ rest, headKind rest = .comma ∨ headKind rest = .rightParen ∨ headKind rest = .rightBracket →
    Binds (x ++ rest) fun t => t.Reads rest ∨ Stuck t

theorem Blocked.stops (h : Blocked x) : Stops x := fun rest _ n hn => (h rest n hn).mono fun _ _ => .inr

theorem Blocked.append (h : Blocked x) (y : List Lexeme) : Blocked (x ++ y) := by
  intro rest
  rw [List.append_assoc]
  exact h (y ++ rest)

theorem Stops.guess (h : Stops x) : Guess x :=
  fun rest hr => h rest fun ha => by rw [ha] at hr; exact absurd hr (by decide)

/-- Whether a token gives a binding its default, or ends it or its list. -/
def endsBinding : TokenKind → Bool
  | .assign | .comma | .rightParen | .rightBracket => true
  | _ => false

/-- An operator after the lexemes blocks them. -/
theorem Stops.blocked (h : Stops x) {l : Lexeme} (hl : endsBinding l.kind = false) (y : List Lexeme) :
    Blocked (x ++ l :: y) := by
  have hne : ∀ k, endsBinding k = true → l.kind ≠ k := fun k hk hkind => by
    rw [hkind, hk] at hl
    cases hl
  intro rest n hn
  rw [List.append_assoc] at hn ⊢
  refine (h (l :: y ++ rest) (hne .assign rfl) n hn).mono fun _ t ht => ht.elim (fun ht => ?_) id
  rw [Stuck, ht.1.kind]
  exact ⟨hne _ rfl, hne _ rfl, hne _ rfl⟩

theorem bindingElement_rest (n : Nat) (p : Pattern) : Steady (do
    if ← accept .assign then return Declarator.mk 0 p (some (← (Sub.upTo n).assignment))
    else return Declarator.mk 0 p none) :=
  (accept_steady _).seq fun _ => .ite
    (fun _ => (sounds_upTo n).assignment.steady.seq fun _ => .pure fun _ => trivial) fun _ => .pure fun _ => trivial

theorem target_upTo {Q : Pattern → Token → Prop} (hn : 0 < n) (h : Tries P (target (.upTo (n - 1))) Q) :
    Tries P (Sub.upTo n).target Q := by
  obtain ⟨n, rfl⟩ := Nat.exists_eq_succ_of_ne_zero (Nat.ne_of_gt hn)
  exact h

theorem target_word_upTo (hn : 0 < n) (hw : TokenKind.ofWord? w = none) (hp : isPrivate w = false) :
    Gives (Sub.upTo n).target (.word w :: rest) (.ident { name := w }) rest := by
  obtain ⟨n, rfl⟩ := Nat.exists_eq_succ_of_ne_zero (Nat.ne_of_gt hn)
  exact target_word hw hp

theorem Blocked.of_headKind (hx : x ≠ []) (h : opensBinding (headKind x) = false) : Blocked x := by
  intro rest n hn
  rw [← Lexeme.headKind_append hx rest] at h
  exact .bind (Q := fun _ _ => False) (target_upTo (by omega) (target_fault h)) (fun _ _ _ => False.elim)
    fun p => bindingElement_rest n p

theorem Stops.word (hw : TokenKind.ofWord? w = none) (hp : isPrivate w = false) : Stops [.word w] := by
  intro rest hr n hn
  exact .after (target_word_upTo (by omega) hw hp) (.after (.pass hr) (.no Bool.false_ne_true (.pure fun t => .inl)))

theorem Guess.assign (hw : TokenKind.ofWord? w = none) (hp : isPrivate w = false) {e : Expr} (hy : Whole y e) :
    Guess (.word w :: .sign .assign :: y) := by
  intro rest hr n hn
  have hreach : (headKind rest).reach ≤ 1 := by
    obtain hr | hr | hr := hr <;> rw [hr] <;> decide
  simp only [List.cons_append, List.length_cons] at hn
  exact .after (target_word_upTo (by omega) hw hp) (.after (.accept rfl) (.yes rfl
    (.after (assignment_upTo (by omega) (hy _ rest (by omega) hreach)) (.pure fun t => .inl))))

/-! ### Lists of bindings -/

/-- A comma after an item of a list, unless the list is closed. -/
def commaAfter (closing : TokenKind) (a : α) : Parser α := do
  if (← kind) ≠ closing then expect .comma
  return a

theorem commaAfter_steady (closing : TokenKind) (a : α) : (commaAfter closing a).Steady :=
  kind_steady.seq fun _ => .option (expect_steady _) (.pure fun _ => trivial)

theorem commaAfter_stuck {closing : TokenKind} (h : ∀ t, Stuck t → t.kind ≠ closing) :
    Tries Stuck (commaAfter closing a) Q :=
  .other h (.bind (Q := fun _ _ => False) (.expect fun _ ht => ht.1) (fun _ _ _ => False.elim)
    fun _ => .pure fun _ => trivial)

section Bindings

variable {closing : TokenKind} (hc : ∀ t, Stuck t → t.kind ≠ closing)

include hc

theorem commaAfter_last (hr : headKind rest = closing) :
    Tries (fun t => t.Reads rest ∨ Stuck t) (commaAfter closing a) fun b t => b = a ∧ t.Reads rest :=
  .or (.after .kind (.no (fun hne => hne hr) (.pure fun _ ht => ⟨rfl, ht⟩))) (commaAfter_stuck hc)

theorem commaAfter_more (hne : closing ≠ .comma) :
    Tries (fun t => t.Reads (.sign .comma :: rest) ∨ Stuck t) (commaAfter closing a)
      fun b t => b = a ∧ t.Reads rest :=
  .or (.after .kind (.yes hne.symm (.after .expect (.pure fun _ ht => ⟨rfl, ht⟩)))) (commaAfter_stuck hc)

end Bindings

/-- The bindings read so far, and the one that takes the rest. -/
abbrev Bindings := List Declarator × Option Pattern

/-- A binding with the comma after it. -/
def bindItem (closing : TokenKind) (sub : Sub) (r : Bindings) : Parser (Bindings × Bool) := do
  let d ← bindingElement sub
  commaAfter closing ((d :: r.1, none), true)

theorem bindItem_steady (closing : TokenKind) (n : Nat) (r : Bindings) : (bindItem closing (.upTo n) r).Steady :=
  (bindingElement_yields (sounds_upTo n)).steady.seq fun _ => commaAfter_steady _ _

/-- The binding that takes the rest. -/
def restItem (closing : TokenKind) (cause : Cause) (sub : Sub) (r : Bindings) : Parser (Bindings × Bool) := do
  let rest ← sub.target
  if (← kind) ≠ closing then report cause
  return ((r.1, some rest), false)

theorem restItem_steady (closing : TokenKind) (cause : Cause) (n : Nat) (r : Bindings) :
    (restItem closing cause (.upTo n) r).Steady :=
  (sounds_upTo n).target.steady.seq fun _ => kind_steady.seq fun _ =>
    .option (report_yields _).steady (.pure fun _ => trivial)

def parameter (sub : Sub) (r : Bindings) : Parser (Bindings × Bool) := do
  if ← accept .ellipsis then restItem .rightParen .restParameter sub r
  else bindItem .rightParen sub r

theorem parameters_eq (sub : Sub) : parameters sub = (do
    expect .leftParen
    let r ← withIn (many (isOpen .rightParen) (parameter sub) sub.fuel ([], none))
    expect .rightParen
    return (r.1.reverse, r.2)) := rfl

def patternElement (sub : Sub) (r : Bindings) : Parser (Bindings × Bool) := do
  if ← accept .comma then return ((.mk 0 .hole none :: r.1, none), true)
  else if ← accept .ellipsis then restItem .rightBracket .restElement sub r
  else bindItem .rightBracket sub r

theorem arrayPattern_eq (sub : Sub) : arrayPattern sub = (do
    expect .leftBracket
    let r ← many (isOpen .rightBracket) (patternElement sub) sub.fuel ([], none)
    expect .rightBracket
    return .array r.1.reverse r.2) := rfl

theorem parameter_steady (n : Nat) (r : Bindings) : (parameter (.upTo n) r).Steady :=
  (accept_steady _).seq fun _ => .ite (fun _ => restItem_steady _ _ _ _) fun _ => bindItem_steady _ _ _

theorem patternElement_steady (n : Nat) (r : Bindings) : (patternElement (.upTo n) r).Steady :=
  (accept_steady _).seq fun _ => .ite (fun _ => .pure fun _ => trivial) fun _ =>
    (accept_steady _).seq fun _ => .ite (fun _ => restItem_steady _ _ _ _) fun _ => bindItem_steady _ _ _

/-- The lexemes of an element are a guess, or there are none and the element is left out. -/
def Bound (f : Expr → List Lexeme) (e : Expr) : Prop :=
  if e.isHole then f .hole = [] else (headKind (f e)).opens ∧ Guess (f e)

/-- A loop over bindings takes what stands in front of it for a binding, and a comma for one that is left
out if there is any. -/
structure Loops (step : Bindings → Parser (Bindings × Bool)) (closing : TokenKind) (n : Nat) (es : List Expr) :
    Prop where
  closes : closing = .rightParen ∨ closing = .rightBracket
  steady : ∀ r, (step r).Steady
  item : ∀ r ls Q, headKind ls ≠ .ellipsis → headKind ls ≠ .comma →
    Tries (·.Reads ls) (bindItem closing (.upTo n) r) Q → Tries (·.Reads ls) (step r) Q
  hole : ∀ e ∈ es, e.isHole → ∀ r rest, ∃ r', Gives (step r) (.sign .comma :: rest) (r', true) rest

variable {f : Expr → List Lexeme} {es : List Expr} {step : Bindings → Parser (Bindings × Bool)} {closing : TokenKind}

theorem Loops.tail {e : Expr} (h : Loops step closing n (e :: es)) : Loops step closing n es :=
  { h with hole := fun e he => h.hole e (List.mem_cons_of_mem _ he) }

theorem Loops.stuck (h : Loops step closing n es) (t : Token) (ht : Stuck t) : t.kind ≠ closing := by
  obtain rfl | rfl := h.closes
  · exact ht.2.1
  · exact ht.2.2

theorem Loops.loop_steady (h : Loops step closing n es) (m : Nat) (r : Bindings) :
    (many (isOpen closing) step m r).Steady :=
  (Yields.many (I := fun _ _ => True) (isOpen_steady _) (fun r => (h.steady r).mono fun _ _ _ _ => trivial) m
    r).steady

/-- What is taken for a binding is followed by a comma or closes the list. -/
theorem Loops.bindItem (h : Loops step closing n es) (hx : (headKind x).opens ∧ Guess x) (r : Bindings)
    (hrest : rest = .sign .comma :: mid ∨ rest = mid ∧ headKind mid = closing)
    (hn : 8 * (x ++ rest).length + 6 ≤ n) :
    Tries (·.Reads (x ++ rest)) (step r) fun b t => b.2 = true ∧ t.Reads mid := by
  refine h.item r _ _ (headKind_ne_of_opens hx.1 rfl) (headKind_ne_of_opens hx.1 rfl) ?_
  have hr : headKind rest = .comma ∨ headKind rest = .rightParen ∨ headKind rest = .rightBracket := by
    obtain rfl | ⟨rfl, hmid⟩ := hrest
    · exact .inl rfl
    · exact .inr (hmid ▸ h.closes)
  refine (hx.2 rest hr n hn).bind (fun d => ?_) fun d => commaAfter_steady _ _
  obtain rfl | ⟨rfl, hmid⟩ := hrest
  · refine Tries.mono (commaAfter_more h.stuck ?_) fun b t hb => ⟨by rw [hb.1], hb.2⟩
    rintro rfl
    exact absurd h.closes (by decide)
  · exact Tries.mono (commaAfter_last h.stuck hmid) fun b t hb => ⟨by rw [hb.1], hb.2⟩

theorem Loops.step_tries {e : Expr} (h : Loops step closing n (e :: es)) (he : Bound f e)
    (hclose : headKind rest = closing) (hn : 8 * (elements f (e :: es) ++ rest).length + 6 ≤ n) (r : Bindings) :
    Tries (·.Reads (elements f (e :: es) ++ rest)) (step r) fun b t =>
      b.2 = true ∧ t.Reads (elements f es ++ rest) := by
  rw [Bound] at he
  split at he
  · next hhole =>
    obtain rfl := eq_hole_of_isHole hhole
    obtain ⟨r', hr'⟩ := h.hole .hole List.mem_cons_self rfl r (elements f es ++ rest)
    rw [elements_hole he]
    exact (Tries.of_gives hr').mono fun b t hb => ⟨by rw [hb.1], hb.2⟩
  · next hhole =>
    cases es with
    | nil =>
      rw [elements_singleton (Bool.eq_false_iff.2 hhole)] at hn ⊢
      exact h.bindItem he r (.inr ⟨rfl, hclose⟩) hn
    | cons e' es =>
      rw [elements_cons, List.append_assoc, List.cons_append] at hn ⊢
      exact h.bindItem he r (.inl rfl) hn

theorem Bound.headKind {e : Expr} (he : Bound f e) (es : List Expr) (hk : closing ≠ .comma)
    (hc : closing.opens = false) : headKind (elements f (e :: es) ++ rest) ≠ closing := by
  rw [Bound] at he
  split at he
  · next hhole =>
    obtain rfl := eq_hole_of_isHole hhole
    rw [elements_hole he]
    exact hk.symm
  · next hhole =>
    cases es with
    | nil =>
      rw [elements_singleton (Bool.eq_false_iff.2 hhole)]
      exact headKind_ne_of_opens he.1 hc
    | cons e' es =>
      rw [elements_cons, List.append_assoc]
      exact headKind_ne_of_opens he.1 hc

theorem Bound.length_le {e : Expr} (he : Bound f e) (es : List Expr) :
    (elements f es).length ≤ (elements f (e :: es)).length := by
  rw [Bound] at he
  split at he
  · next hhole =>
    obtain rfl := eq_hole_of_isHole hhole
    rw [elements_hole he]
    exact Nat.le_succ _
  · cases es with
    | nil => exact Nat.zero_le _
    | cons e' es =>
      rw [elements_cons, List.length_append, List.length_cons]
      omega

/-- By induction on the elements: a loop over bindings ends where the elements do, or finds a fault, or is cut
short. -/
theorem Loops.loop_tries (h : Loops step closing n es) (hes : ∀ e ∈ es, Bound f e)
    (hclose : headKind rest = closing) (hn : 8 * (elements f es ++ rest).length + 6 ≤ n) (m : Nat) (r : Bindings) :
    Tries (·.Reads (elements f es ++ rest)) (many (isOpen closing) step m r)
      fun _ t => t.Reads rest ∨ t.kind ≠ closing := by
  induction es generalizing m r with
  | nil => exact (Tries.of_gives (.stop (.closed hclose) m)).mono fun _ _ ht => .inl ht.2
  | cons e es ih =>
    have he := hes e List.mem_cons_self
    have hne : closing ≠ .comma ∧ closing.opens = false := by
      obtain rfl | rfl := h.closes <;> exact ⟨by decide, rfl⟩
    cases m with
    | zero =>
      intro t s ht
      refine .inr ⟨r, t, { s with starved := true }, rfl, .inr ?_⟩
      rw [ht.kind]
      exact he.headKind es hne.1 hne.2
    | succ m =>
      have hopen : Gives (isOpen closing) (elements f (e :: es) ++ rest) true _ :=
        .opened (he.headKind es hne.1 hne.2) (he.headKind es nofun rfl)
      refine .more hopen (h.step_tries he hclose hn r) (fun b => ?_) fun b => h.loop_steady m b
      refine ih h.tail (fun e he => hes e (List.mem_cons_of_mem _ he)) ?_ m b
      have hlength := he.length_le es
      rw [List.length_append] at hn ⊢
      omega

theorem close_tries {c : β} (hQ : ∀ t, t.Reads rest → R c t) :
    Tries (fun t => t.Reads (.sign closing :: rest) ∨ t.kind ≠ closing) (do expect closing; return c) R :=
  .or (.after .expect (.pure hQ)) (.bind (Q := fun _ _ => False) (.expect fun _ => id) (fun _ _ _ => False.elim)
    fun _ => .pure fun _ => trivial)

theorem close_steady (c : β) : Steady (do expect closing; return c) :=
  (expect_steady _).seq fun _ => .pure fun _ => trivial

/-- The lexemes between parentheses are no parameters of an arrow function where no arrow follows. -/
def Params (y : List Lexeme) : Prop :=
  ∀ n rest, 8 * (y.length + rest.length + 2) + 5 ≤ n → headKind rest ≠ .arrow →
    Tries (·.Reads (.sign .leftParen :: (y ++ .sign .rightParen :: rest))) (parameters (.upTo n))
      fun _ t => t.kind ≠ .arrow

theorem Loops.parameter (hes : ∀ e ∈ es, e.isHole = false) : Loops (parameter (.upTo n)) .rightParen n es where
  closes := .inl rfl
  steady := parameter_steady n
  item _ _ _ he _ h := .after (.pass he) (.no Bool.false_ne_true h)
  hole e he hhole := by
    rw [hes e he] at hhole
    cases hhole

theorem Loops.patternElement : Loops (patternElement (.upTo n)) .rightBracket n es where
  closes := .inr rfl
  steady := patternElement_steady n
  item _ _ _ he hc h := .after (.pass hc) (.no Bool.false_ne_true (.after (.pass he) (.no Bool.false_ne_true h)))
  hole _ _ _ _ _ := ⟨_, .bind (.accept rfl) (.yes rfl .pure)⟩

theorem elements_eq_commas (hes : ∀ e ∈ es, e.isHole = false) : elements f es = Lexeme.commas (es.map f) := by
  have hlast : es.getLast?.any Expr.isHole = false := by
    cases hl : es.getLast? with
    | none => rfl
    | some e => exact hes e (List.mem_of_getLast? hl)
  rw [elements, hlast]
  exact List.append_nil _

theorem Params.of_items (hes : ∀ e ∈ es, e.isHole = false ∧ (headKind (f e)).opens ∧ Guess (f e)) :
    Params (Lexeme.commas (es.map f)) := by
  intro n rest hn hr
  rw [← elements_eq_commas fun e he => (hes e he).1] at hn ⊢
  rw [parameters_eq]
  have hbound : ∀ e ∈ es, Bound f e := fun e he => by
    rw [Bound, (hes e he).1]
    exact (hes e he).2
  refine .after .expect (.bind (.withIn (Loops.loop_tries (.parameter fun e he => (hes e he).1) hbound rfl ?_ n _))
    (fun r => close_tries fun t ht => ht.kind ▸ hr) fun r => close_steady _)
  rw [List.length_append, List.length_cons]
  omega

theorem Stops.array (hes : ∀ e ∈ es, Bound f e) :
    Stops (.sign .leftBracket :: (elements f es ++ [.sign .rightBracket])) := by
  intro rest hr n hn
  simp only [List.append_assoc, List.cons_append, List.nil_append] at hn ⊢
  rw [List.length_cons] at hn
  have hpattern : Tries (·.Reads (.sign .leftBracket :: (elements f es ++ .sign .rightBracket :: rest)))
      (arrayPattern (.upTo (n - 1))) fun _ t => t.Reads rest := by
    rw [arrayPattern_eq]
    exact .after .expect (.bind (Loops.loop_tries .patternElement hes rfl (by omega) _ _)
      (fun r => close_tries fun _ => id) fun r => close_steady _)
  refine .bind (target_upTo (by omega) (.after .kind hpattern)) (fun p => ?_) (bindingElement_rest n)
  exact .after (.pass hr) (.no Bool.false_ne_true (.pure fun t => .inl))

/-! ### Arrow functions -/

/-- The parser goes back if it has found a fault or no arrow. -/
theorem listArrow?_none {async : Bool}
    (h : Tries (·.Reads ls) (arrowParameters (.upTo n) async) fun _ t => t.kind ≠ .arrow) :
    Gives (listArrow? (.upTo n) async) ls none ls := by
  intro t s ht
  obtain ⟨⟨⟨params, rest⟩, u⟩, hu⟩ : ∃ r, arrowParameters (.upTo n) async (.before t s) = r := ⟨_, rfl⟩
  have hback : (decide (u.faults.length > 0) || decide (u.token.kind ≠ .arrow) || u.token.onNewLine) = true := by
    obtain hfault | ⟨r, t', s', hrun, hr⟩ := h t s ht
    · rw [hu] at hfault
      rw [decide_eq_true hfault, Bool.true_or, Bool.true_or]
    · cases hu.symm.trans hrun
      simp [State.before, hr]
  have hnone : (listArrow? (.upTo n) async (.before t s)).1 = none := by
    rw [listArrow?, run_bind, run_bind, show arrowParameters (.upTo n) async (checkpoint (.before t s)).2 = _ from hu]
    show ((if (decide (u.faults.length > 0) || decide (u.token.kind ≠ .arrow) || u.token.onNewLine) = true then _
      else _ : Parser (Option Expr)) u).1 = none
    rw [if_pos hback]
    rfl
  let trail : Trail := { s with starved := (listArrow? (.upTo n) async (.before t s)).2.starved }
  exact ⟨t, trail, Prod.ext hnone (listArrow?_attempts (sounds_upTo n) async _ hnone), ht⟩

/-- Whether a token may make an arrow function of a name before it. -/
def makesArrow : TokenKind → Bool
  | .arrow | .name | .leftParen => true
  | _ => false

/-- What stands after the lexemes makes no arrow function of them. -/
def Harmless (rest : List Lexeme) : Prop :=
  makesArrow (headKind rest) = false ∨
    ∃ y z, rest = .sign .leftParen :: (y ++ .sign .rightParen :: z) ∧ Params y ∧ headKind z ≠ .arrow

/-- No arrow function is seen in front of the lexemes unless what stands after them makes one. -/
def Calm (x : List Lexeme) : Prop := ∀ rest, Harmless rest → Arrowless (x ++ rest)

theorem Harmless.of_reach (h : (headKind rest).reach ≤ 17) : Harmless rest := by
  refine .inl ?_
  generalize headKind rest = k at h ⊢
  cases k <;> first | rfl | exact absurd h (by decide)

theorem Harmless.ne_arrow (h : Harmless rest) : headKind rest ≠ .arrow := by
  obtain h | ⟨y, z, rfl, -⟩ := h
  · exact fun hk => by rw [hk] at h; cases h
  · exact nofun

theorem Harmless.ne_name (h : Harmless rest) : headKind rest ≠ .name := by
  obtain h | ⟨y, z, rfl, -⟩ := h
  · exact fun hk => by rw [hk] at h; cases h
  · exact nofun

theorem Calm.arrowless (h : Calm x) (hr : (headKind rest).reach ≤ 17) : Arrowless (x ++ rest) :=
  h rest (.of_reach hr)

/-- An operator after the lexemes keeps an arrow away from them. -/
theorem Calm.append (h : Calm x) {l : Lexeme} (hl : makesArrow l.kind = false) (y : List Lexeme) :
    Calm (x ++ l :: y) := by
  intro rest _
  rw [List.append_assoc]
  exact h _ (.inl hl)

theorem Calm.call (h : Calm x) (hy : Params y) : Calm (x ++ .sign .leftParen :: (y ++ [.sign .rightParen])) := by
  intro rest hr
  simp only [List.append_assoc, List.cons_append, List.nil_append]
  exact h _ (.inr ⟨y, rest, rfl, hy, hr.ne_arrow⟩)

theorem Calm.of_headKind (hx : x ≠ []) (h : namesBinding (headKind x) = false) (hp : headKind x ≠ .leftParen) :
    Calm x := by
  intro rest _ n _
  rw [← Lexeme.headKind_append hx rest] at h hp
  exact .bind (isBindingName_none h) (.no Bool.false_ne_true (.bind .kind (.no hp .pure)))

theorem Calm.parens (hy : Params y) : Calm (.sign .leftParen :: (y ++ [.sign .rightParen])) := by
  intro rest hr n hn
  simp only [List.append_assoc, List.cons_append, List.nil_append] at hn ⊢
  refine .bind (isBindingName_none rfl) (.no Bool.false_ne_true (.bind .kind (.yes rfl (listArrow?_none ?_))))
  simp only [List.length_append, List.length_cons] at hn
  exact hy n rest (by omega) hr.ne_arrow

theorem Calm.word (hw : TokenKind.ofWord? w = none) (hp : isPrivate w = false) : Calm [.word w] := by
  intro rest hr n hn
  refine .bind (isBindingName_word hw hp) (.yes rfl (.peek fun t ht => .isWord hw "async" ?_))
  have hline : headKind rest = .leftParen → t.onNewLine = false := by
    cases rest with
    | nil => exact nofun
    | cons => exact fun _ => ht.2.1
  have hkind : t.kind = headKind rest := ht.kind
  have harrow := hr.ne_arrow
  have hname := hr.ne_name
  rw [← hkind] at harrow hname hline
  by_cases hcall : w = "async" ∧ t.kind = .leftParen
  · obtain ⟨y, z, rfl, hy, hz⟩ := hr.resolve_left fun h => by rw [← hkind, hcall.2] at h; cases h
    refine .yes (by simp [hcall, hline]) (listArrow?_none (.after .next (hy n z ?_ hz)))
    simp only [List.cons_append, List.nil_append, List.length_append, List.length_cons] at hn
    omega
  · refine .no ?_ (.no (by simp [hname]) (.yes (by simp [harrow]) .pure))
    simp only [Bool.and_eq_true, decide_eq_true_eq]
    exact fun h => hcall h.1

end Deadwood.Parser
