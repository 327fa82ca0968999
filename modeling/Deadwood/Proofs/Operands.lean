import Deadwood.Parser.Module
import Deadwood.Proofs.Reading

/-!
# Reading operands

Each production of expressions reads the lexemes of the expressions at its level, if the token after them
does not take what was read as its own left operand.  How loose such an operand may be is the reach of the
token.  Operators and suffixes that group to the left are read by loops.  What is said of the lexemes of an
operand leaves the rest of such a loop open.
-/

namespace Deadwood

open Lexeme (headKind)

/-! ### Reach -/

/-- The level of the loosest expression that a token takes as its left operand, and zero if it takes none.
Nothing that is read as an expression stands before an arrow, a name or `function`. -/
def TokenKind.reach : TokenKind → Nat
  | .arrow | .name | .functionKw => 19
  | .dot | .questionDot | .leftBracket | .leftParen | .template => 18
  | .increment | .decrement => 17
  | .exponent => 16
  | .question => 3
  | .comma => 1
  | k => if k.isAssign then 2 else if k.precedence true = 0 then 0 else 2 + k.precedence true

theorem BinaryOp.ofKind?_kind (op : BinaryOp) : ofKind? op.kind = some op := by cases op <;> rfl

theorem BinaryOp.kind_of_ofKind? {k : TokenKind} {op : BinaryOp} (h : ofKind? k = some op) : op.kind = k := by
  simpa using List.find?_some h

theorem AssignOp.ofKind?_kind (op : AssignOp) : ofKind? op.kind = some op := by cases op <;> rfl

theorem AssignOp.kind_of_ofKind? {k : TokenKind} {op : AssignOp} (h : ofKind? k = some op) : op.kind = k := by
  simpa using List.find?_some h

/-- Exponentiation takes only what stands tighter than a unary operator. -/
theorem BinaryOp.reach_kind (op : BinaryOp) :
    op.kind.reach = if op = .exponent then Level.update else op.level := by cases op <;> rfl

theorem AssignOp.reach_kind (op : AssignOp) : op.kind.reach = 2 := by cases op <;> rfl

/-- The level above which an operator takes its right operand. -/
def BinaryOp.above (op : BinaryOp) : Nat := if op = .exponent then op.precedence - 1 else op.precedence

theorem BinaryOp.above_add (op : BinaryOp) : op.above + 3 = op.levels.2 := by cases op <;> rfl

/-- An operator that does not reach past another one's right operand binds no tighter. -/
theorem BinaryOp.precedence_le {op op' : BinaryOp} (h : op'.kind.reach ≤ op.level) : op'.precedence ≤ op.above := by
  have hlevel : op.level ≤ 14 := by cases op <;> decide
  have hexp : op' ≠ .exponent := by
    rintro rfl
    exact absurd (Nat.le_trans h hlevel) (by decide)
  rw [reach_kind, if_neg hexp] at h
  unfold above
  split
  · next hop =>
    subst hop
    cases op' <;> first | decide | exact absurd rfl hexp
  · exact Nat.le_of_add_le_add_left h

theorem BinaryOp.ofKind?_eq_none {k : TokenKind} (h : k.reach ≤ 2) : ofKind? k = none := by
  cases hop : ofKind? k with
  | none => rfl
  | some op =>
    rw [← kind_of_ofKind? hop] at h
    cases op <;> exact absurd h (by decide)

theorem AssignOp.ofKind?_eq_none {k : TokenKind} (h : k.reach ≤ 1) : ofKind? k = none := by
  cases hop : ofKind? k with
  | none => rfl
  | some op =>
    rw [← kind_of_ofKind? hop, reach_kind] at h
    exact absurd h (by decide)

theorem UpdateOp.ofKind?_eq_none {k : TokenKind} (h : k.reach ≤ 16) : ofKind? k = none := by
  unfold ofKind?
  split
  · exact absurd h (by decide)
  · exact absurd h (by decide)
  · rfl

theorem Lexeme.isName_kind_word (w : String) : (word w).kind.isName := by
  rw [kind]
  cases hk : TokenKind.ofWord? w with
  | none => rfl
  | some k =>
    have hwords : ∀ p ∈ TokenKind.words, p.2.isName := by decide
    obtain ⟨l₁, l₂, hl, -⟩ := List.lookup_eq_some_iff.1 hk
    exact hwords (w, k) (hl ▸ List.mem_append_right _ List.mem_cons_self)

theorem UnaryOp.ofKind?_kind (op : UnaryOp) : ofKind? op.kind = some op := by cases op <;> rfl

theorem UpdateOp.ofKind?_kind (op : UpdateOp) : ofKind? op.kind = some op := by cases op <;> rfl

/-- Whether a token opens an expression that no operator stands in front of. -/
def TokenKind.opensHead : TokenKind → Bool
  | .name | .thisKw | .null | .boolean | .number | .string | .leftBracket | .leftParen | .newKw => true
  | _ => false

theorem Expr.isAssignable_of_false {e : Expr} (h : e.isAssignable false) (b : Bool) : e.isAssignable b := by
  cases e <;> first | exact h | cases h

theorem Expr.isPattern_of_isAssignable {e : Expr} (h : e.isAssignable false) : e.isPattern = false := by
  cases e <;> first | rfl | cases h

namespace Parser

theorem isPrivate_of_isName {w : String} (h : Text.isName w) : isPrivate w = false := by
  obtain ⟨c, cs, hw, hc, -⟩ := Text.isName_iff.1 h
  rw [isPrivate, Bool.eq_false_iff, ne_eq, String.startsWith_string_iff, hw]
  intro hp
  obtain rfl : '#' = c := by simpa using hp
  exact absurd hc (by decide)

/-- The productions with `n` levels of recursion left. -/
abbrev Sub.upTo (n : Nat) : Sub := ⟨n, runGoal n⟩

/-- A loop goes on as long as parsing does. -/
def goOn : Parser Bool := do return !(← failed)

/-- The expression that members and calls follow. -/
def head (sub : Sub) : Parser Expr := do
  if (← kind) = .newKw then sub.newExpr else primary sub

theorem head_bind {α : Type} (sub : Sub) (k : Expr → Parser α) : head sub >>= k = (do
    if (← kind) = .newKw then sub.newExpr >>= k else primary sub >>= k) := by
  rw [head, bind_assoc]
  refine bind_congr fun c => ?_
  split <;> rfl

theorem leftHand_eq (sub : Sub) : leftHand sub = head sub >>= many goOn (suffix sub) sub.fuel :=
  (head_bind sub _).symm

theorem binary_eq (sub : Sub) (above : Nat) :
    binary sub above = sub.unary >>= many goOn (operation sub above) sub.fuel := rfl

/-! ### Operands -/

/-- The lexemes are read as an expression that a loop of `step` takes further. -/
def Trails (step : Sub → Expr → Parser (Expr × Bool)) (x : List Lexeme) (e : Expr) : Prop :=
  ∀ n rest v rest', 8 * (x ++ rest).length + 2 ≤ n → (headKind rest).reach ≤ 18 →
    (∀ m, rest.length < m → Gives (many goOn (step (.upTo n)) m e) rest v rest') →
    Gives (head (.upTo n) >>= many goOn (step (.upTo n)) n) (x ++ rest) v rest'

/-- The lexemes are read as an operand of a unary operator. -/
def Operand (level : Nat) (x : List Lexeme) (e : Expr) : Prop :=
  ∀ n rest, 8 * (x ++ rest).length + 3 ≤ n → (headKind rest).reach ≤ level →
    Gives (unary (.upTo n)) (x ++ rest) e rest

/-- The lexemes are read as operands of binary operators that the loop over the operators takes further. -/
def Terms (level : Nat) (x : List Lexeme) (e : Expr) : Prop :=
  ∀ n above rest v rest', 8 * (x ++ rest).length + 4 ≤ n → above + 3 ≤ level → (headKind rest).reach ≤ level →
    (∀ m, rest.length < m → Gives (many goOn (operation (.upTo n) above) m e) rest v rest') →
    Gives (binary (.upTo n) above) (x ++ rest) v rest'

/-- The lexemes are read as an expression without commas. -/
def Whole (x : List Lexeme) (e : Expr) : Prop :=
  ∀ n rest, 8 * (x ++ rest).length + 5 ≤ n → (headKind rest).reach ≤ 1 →
    Gives (assignment (.upTo n)) (x ++ rest) e rest

/-- The lexemes are read as an expression. -/
def Phrase (x : List Lexeme) (e : Expr) : Prop :=
  ∀ n rest, 8 * (x ++ rest).length + 6 ≤ n → (headKind rest).reach = 0 →
    Gives (expression (.upTo n)) (x ++ rest) e rest

/-! ### One level down -/

section Levels

variable {n : Nat} {ls rest : List Lexeme} {e : Expr}

theorem assignment_upTo (hn : 0 < n) (h : Gives (assignment (.upTo (n - 1))) ls e rest) :
    Gives (Sub.upTo n).assignment ls e rest := by
  obtain ⟨n, rfl⟩ := Nat.exists_eq_succ_of_ne_zero (Nat.ne_of_gt hn)
  exact h

theorem binary_upTo {above : Nat} (hn : 0 < n) (h : Gives (binary (.upTo (n - 1)) above) ls e rest) :
    Gives ((Sub.upTo n).binary above) ls e rest := by
  obtain ⟨n, rfl⟩ := Nat.exists_eq_succ_of_ne_zero (Nat.ne_of_gt hn)
  exact h

theorem unary_upTo (hn : 0 < n) (h : Gives (unary (.upTo (n - 1))) ls e rest) :
    Gives (Sub.upTo n).unary ls e rest := by
  obtain ⟨n, rfl⟩ := Nat.exists_eq_succ_of_ne_zero (Nat.ne_of_gt hn)
  exact h

theorem leftHand_upTo (hn : 0 < n) (h : Gives (leftHand (.upTo (n - 1))) ls e rest) :
    Gives (Sub.upTo n).leftHand ls e rest := by
  obtain ⟨n, rfl⟩ := Nat.exists_eq_succ_of_ne_zero (Nat.ne_of_gt hn)
  exact h

theorem newExpr_upTo (hn : 0 < n) (h : Gives (newExpr (.upTo (n - 1))) ls e rest) :
    Gives (Sub.upTo n).newExpr ls e rest := by
  obtain ⟨n, rfl⟩ := Nat.exists_eq_succ_of_ne_zero (Nat.ne_of_gt hn)
  exact h

end Levels

/-! ### Primary expressions -/

section Primary

variable {sub : Sub} {rest : List Lexeme}

theorem isAsyncFunction_gives {w : String} (hw : TokenKind.ofWord? w = none) (hf : headKind rest ≠ .functionKw) :
    Gives isAsyncFunction (.word w :: rest) false (.word w :: rest) := by
  refine .isWord hw "async" ?_
  by_cases ha : w = "async"
  · simp only [ha, decide_true, if_true]
    refine .peek fun t ht => ?_
    rw [ht.kind, decide_eq_false hf]
    exact .pure
  · simp only [ha, decide_false]
    exact .pure

theorem primary_ident {w : String} (hw : TokenKind.ofWord? w = none) (hp : isPrivate w = false)
    (h : (headKind rest).reach ≤ 18) : Gives (primary sub) (.word w :: rest) (.ident { name := w }) rest := by
  refine .token fun t ht => ?_
  have hk : t.kind = .name := by rw [ht.kind, Lexeme.headKind_cons, Lexeme.kind, hw]; rfl
  have hf : headKind rest ≠ .functionKw := fun hf => absurd (hf ▸ h) (by decide)
  rw [hk]
  refine .bind (isAsyncFunction_gives hw hf) (.no Bool.false_ne_true (.no ?_ (.bind (.identifier hw) .pure)))
  rw [ht.1.2.1, hp]
  exact Bool.false_ne_true

theorem primary_this : Gives (primary sub) (.sign .thisKw :: rest) .this rest := by
  refine .token fun t ht => ?_
  rw [ht.kind]
  exact .bind .next .pure

theorem primary_null : Gives (primary sub) (.word "null" :: rest) .null rest := by
  refine .token fun t ht => ?_
  rw [ht.kind]
  exact .bind .next .pure

theorem primary_bool (b : Bool) :
    Gives (primary sub) (.word (if b then "true" else "false") :: rest) (.bool b) rest := by
  refine .token fun t ht => ?_
  have hv := ht.1.2.1
  cases b <;> rw [ht.kind] <;> refine .bind .next ?_ <;> rw [hv] <;> exact .pure

theorem primary_number (digits : String) :
    Gives (primary sub) (.number digits :: rest) (.number (Token.numberOf digits) (some digits)) rest := by
  refine .token fun t ht => ?_
  rw [ht.kind]
  refine .bind .next ?_
  rw [ht.1.2.1, ht.1.2.2]
  exact .pure

theorem primary_string (value : String) :
    Gives (primary sub) (.string value :: rest) (.string ⟨value, some (Text.quote value)⟩) rest := by
  refine .token fun t ht => ?_
  rw [ht.kind]
  refine .bind .next ?_
  rw [ht.1.2.1, ht.1.2.2]
  exact .pure

end Primary

/-! ### Members and calls -/

section Suffixes

variable {n : Nat} {e k : Expr} {x y rest : List Lexeme}

/-- The lexemes are read as the arguments of a call, with parentheses around them. -/
def Args (y : List Lexeme) (es : List Expr) : Prop :=
  ∀ n rest, 8 * (y.length + rest.length + 2) + 2 ≤ n →
    Gives (arguments (.upTo n)) (.sign .leftParen :: (y ++ .sign .rightParen :: rest)) es rest

theorem suffix_stop {sub : Sub} (h : (headKind rest).reach ≤ 17) : Gives (suffix sub e) rest (e, false) rest := by
  refine .bind .kind ?_
  split
  all_goals first | exact .pure | exact absurd h (by simp only [*]; decide)

theorem calleeSuffix_stop {sub : Sub} (h : headKind rest = .leftParen) :
    Gives (calleeSuffix sub e) rest (e, false) rest := by
  refine .bind .kind ?_
  rw [h]
  exact .pure

theorem propertyName_gives {w : String} (hw : Text.isName w) :
    Gives propertyName (.word w :: rest) { name := w } rest := by
  refine .token fun t ht => ?_
  have hk : t.kind.isName := by rw [ht.kind]; exact Lexeme.isName_kind_word w
  rw [hk, ht.1.2.1, isPrivate_of_isName hw]
  exact .no Bool.false_ne_true (.bind .context (.no Bool.false_ne_true (.bind .next .pure)))

theorem computedKey_gives (hk : Phrase x k) (hn : 8 * (x.length + rest.length + 2) + 2 ≤ n) :
    Gives (computedKey (.upTo n)) (.sign .leftBracket :: (x ++ .sign .rightBracket :: rest)) k rest := by
  refine .bind .expect (.bind (.withIn (hk n _ ?_ rfl)) (.bind .expect .pure))
  simp only [List.length_append, List.length_cons]
  omega

/-- The loops over members and calls and over members alone. -/
inductive IsSuffix : (Sub → Expr → Parser (Expr × Bool)) → Prop
  | suffix : IsSuffix suffix
  | callee : IsSuffix calleeSuffix

variable {step : Sub → Expr → Parser (Expr × Bool)}

theorem IsSuffix.member (h : IsSuffix step) {sub : Sub} {w : String} (hw : Text.isName w) :
    Gives (step sub e) (.sign .dot :: .word w :: rest) (.member e { name := w } false, true) rest := by
  cases h <;> exact .bind .kind (.bind .next (.bind (propertyName_gives hw) .pure))

theorem IsSuffix.index (h : IsSuffix step) (hk : Phrase x k) (hn : 8 * (x.length + rest.length + 2) + 2 ≤ n) :
    Gives (step (.upTo n) e) (.sign .leftBracket :: (x ++ .sign .rightBracket :: rest)) (.index e k false, true)
      rest := by
  cases h <;> exact .bind .kind (.bind (computedKey_gives hk hn) .pure)

theorem Trails.member (h : Trails step x e) (hs : IsSuffix step) {w : String} (hw : Text.isName w) :
    Trails step (x ++ [.sign .dot, .word w]) (.member e { name := w } false) := by
  intro n rest v rest' hn hr hloop
  simp only [List.append_assoc, List.cons_append, List.nil_append] at hn ⊢
  refine h n _ v rest' hn (Nat.le_refl 18) fun m hm => ?_
  refine .more (by omega) .goOn (hs.member hw) (hloop _ ?_)
  simp only [List.length_cons] at hm
  omega

theorem Trails.index (h : Trails step x e) (hs : IsSuffix step) (hk : Phrase y k) :
    Trails step (x ++ .sign .leftBracket :: (y ++ [.sign .rightBracket])) (.index e k false) := by
  intro n rest v rest' hn hr hloop
  simp only [List.append_assoc, List.cons_append, List.nil_append] at hn ⊢
  refine h n _ v rest' hn (Nat.le_refl 18) fun m hm => ?_
  simp only [List.length_append, List.length_cons] at hn hm
  exact .more (by omega) .goOn (hs.index hk (by omega)) (hloop _ (by omega))

theorem Trails.call (h : Trails suffix x e) {es : List Expr} (hy : Args y es) :
    Trails suffix (x ++ .sign .leftParen :: (y ++ [.sign .rightParen])) (.call e es false) := by
  intro n rest v rest' hn hr hloop
  simp only [List.append_assoc, List.cons_append, List.nil_append] at hn ⊢
  refine h n _ v rest' hn (Nat.le_refl 18) fun m hm => ?_
  simp only [List.length_append, List.length_cons] at hn hm
  exact .more (by omega) .goOn (.bind .kind (.bind (hy n rest (by omega)) .pure)) (hloop _ (by omega))

/-! ### Heads -/

theorem Trails.of_head (h : ∀ n rest, 8 * (x ++ rest).length + 2 ≤ n → (headKind rest).reach ≤ 18 →
    Gives (head (.upTo n)) (x ++ rest) e rest) : Trails step x e := by
  intro n rest v rest' hn hr hloop
  refine .bind (h n rest hn hr) (hloop n ?_)
  simp only [List.length_append] at hn
  omega

theorem Trails.of_primary {l : Lexeme} (hl : l.kind ≠ .newKw)
    (h : ∀ n rest, 8 * (l :: (x ++ rest)).length + 2 ≤ n → (headKind rest).reach ≤ 18 →
      Gives (primary (.upTo n)) (l :: (x ++ rest)) e rest) : Trails step (l :: x) e :=
  .of_head fun n rest hn hr => .bind .kind (.no hl (h n rest hn hr))

theorem Trails.parens (h : Phrase x e) : Trails step (.sign .leftParen :: (x ++ [.sign .rightParen])) e := by
  refine .of_primary (by decide) fun n rest hn hr => .token fun t ht => ?_
  rw [ht.kind]
  simp only [List.append_assoc, List.cons_append, List.nil_append] at hn ⊢
  refine .bind .next (.bind (.withIn (h n (.sign .rightParen :: rest) ?_ rfl)) (.bind .expect .pure))
  simp only [List.length_cons] at hn
  omega

/-- The loop over the members of a callee ends at its arguments. -/
theorem Trails.new (h : Trails calleeSuffix x e) (hx : headKind x ≠ .dot) {es : List Expr} (hy : Args y es) :
    Trails step (.sign .newKw :: (x ++ .sign .leftParen :: (y ++ [.sign .rightParen]))) (.new e es) := by
  refine .of_head fun n rest hn hr => .bind .kind (.yes rfl (newExpr_upTo (by omega) ?_))
  simp only [List.append_assoc, List.cons_append, List.nil_append] at hn ⊢
  refine .bind .expect (.bind (.pass ?_) (.no Bool.false_ne_true ?_))
  · cases x with
    | nil => exact nofun
    | cons l x => exact hx
  · simp only [List.length_append, List.length_cons] at hn
    have hcallee := h (n - 1) (.sign .leftParen :: (y ++ .sign .rightParen :: rest)) e _
      (by simp only [List.length_append, List.length_cons]; omega) (Nat.le_refl 18)
      fun m hm => .last (by omega) .goOn (calleeSuffix_stop rfl)
    have hnew := hcallee.bind (k := fun callee => do
      if (← kind) = .leftParen then return Expr.new callee (← arguments (.upTo (n - 1)))
      else return Expr.new callee []) (.bind .kind (.yes rfl (.bind (hy (n - 1) rest (by omega)) .pure)))
    rw [bind_assoc, head_bind] at hnew
    exact hnew

end Suffixes

/-! ### Operators -/

section Operators

variable {n level : Nat} {l r e : Expr} {x y rest : List Lexeme}

theorem Trails.stop (h : Trails suffix x e) (hn : 8 * (x ++ rest).length + 2 ≤ n)
    (hr : (headKind rest).reach ≤ 17) : Gives (leftHand (.upTo n)) (x ++ rest) e rest := by
  rw [leftHand_eq]
  exact h n rest e rest hn (by omega) fun m hm => .last (by omega) .goOn (suffix_stop hr)

/-- What no operator stands in front of is read with the members and calls after it. -/
theorem unary_gives {sub : Sub} {ls : List Lexeme} (hls : (headKind ls).opensHead)
    (h : Gives (updateAfter sub) ls e rest) : Gives (unary sub) ls e rest := by
  refine .token fun t ht => ?_
  have hk : UnaryOp.ofKind? t.kind = none ∧ UpdateOp.ofKind? t.kind = none ∧ t.kind ≠ .awaitKw := by
    rw [ht.kind]
    generalize headKind ls = k at hls
    cases k <;> first | exact ⟨rfl, rfl, by decide⟩ | cases hls
  rw [hk.1, hk.2.1]
  refine .bind .context (.no ?_ h)
  simp [hk.2.2]

theorem headKind_append_of_opensHead (hx : (headKind x).opensHead) (rest : List Lexeme) :
    (headKind (x ++ rest)).opensHead := by
  cases x with
  | nil => cases hx
  | cons => exact hx

theorem Trails.operand (h : Trails suffix x e) (hx : (headKind x).opensHead) : Operand 16 x e := by
  intro n rest hn hr
  refine unary_gives (headKind_append_of_opensHead hx rest) (.token fun start _ => ?_)
  refine .bind (leftHand_upTo (by omega) (h.stop (by omega) (by omega))) (.token fun t ht => ?_)
  rw [ht.kind, UpdateOp.ofKind?_eq_none hr]
  exact .pure

theorem Trails.updated (h : Trails suffix x e) (hx : (headKind x).opensHead) (op : UpdateOp)
    (ht : e.isAssignable false) : Operand 16 (x ++ [.sign op.kind]) (.update op e true) := by
  intro n rest hn hr
  rw [List.append_assoc] at hn ⊢
  refine unary_gives (headKind_append_of_opensHead hx _) (.token fun start _ => ?_)
  refine .bind (leftHand_upTo (by omega) (h.stop (by omega) ?_)) (.token fun t ht' => ?_)
  · cases op <;> exact Nat.le_refl 17
  · rw [ht'.1.kind, Lexeme.kind_sign, UpdateOp.ofKind?_kind, ht'.2.1, ht]
    exact .no Bool.false_ne_true (.no Bool.false_ne_true (.bind .next .pure))

theorem Operand.unary (h : Operand 15 x e) (op : UnaryOp) : Operand 15 (.sign op.kind :: x) (.unary op e) := by
  intro n rest hn hr
  refine .token fun t ht => ?_
  rw [ht.1.kind, Lexeme.kind_sign, UnaryOp.ofKind?_kind]
  refine .bind .next (.bind (unary_upTo (by omega) (h (n - 1) rest ?_ hr)) (.bind .kind (.no ?_ .pure)))
  · simp only [List.cons_append, List.length_cons] at hn
    omega
  · intro hexp
    rw [hexp] at hr
    exact absurd hr (by decide)

theorem Operand.updated (h : Operand 15 x e) (op : UpdateOp) (ht : e.isAssignable false) :
    Operand 15 (.sign op.kind :: x) (.update op e false) := by
  intro n rest hn hr
  refine .token fun t ht' => ?_
  have hun : UnaryOp.ofKind? op.kind = none := by cases op <;> rfl
  rw [ht'.1.kind, Lexeme.kind_sign, UpdateOp.ofKind?_kind, hun]
  refine .bind .next (.bind (unary_upTo (by omega) (h (n - 1) rest ?_ hr)) ?_)
  · simp only [List.cons_append, List.length_cons] at hn
    omega
  · rw [ht]
    exact .no Bool.false_ne_true .pure

theorem operation_stop {sub : Sub} {above : Nat}
    (h : ∀ op, BinaryOp.ofKind? (headKind rest) = some op → op.precedence ≤ above) :
    Gives (operation sub above e) rest (e, false) rest := by
  refine .bind .kind (.bind .context ?_)
  split
  · next op hop =>
    have hprec := h op hop
    rw [BinaryOp.precedence, BinaryOp.kind_of_ofKind? hop] at hprec
    exact .yes hprec .pure
  · exact .pure

theorem operation_more {sub : Sub} {above : Nat} {ls : List Lexeme} {op : BinaryOp} (h : above < op.precedence)
    (hr : Gives (sub.binary op.above) ls r rest) :
    Gives (operation sub above l) (.sign op.kind :: ls) (.binary op l r, true) rest := by
  refine .bind .kind (.bind .context ?_)
  rw [Lexeme.headKind_cons, Lexeme.kind_sign, BinaryOp.ofKind?_kind]
  exact .no (Nat.not_le_of_lt h) (.bind .next (.bind hr .pure))

theorem Operand.terms (h : Operand level x e) {level' : Nat} (hle : level' ≤ level) : Terms level' x e := by
  intro n above rest v rest' hn _ hr hloop
  rw [binary_eq]
  refine .bind (unary_upTo (by omega) (h (n - 1) rest (by omega) (by omega))) (hloop n ?_)
  simp only [List.length_append] at hn
  omega

theorem Terms.mono (h : Terms level x e) {level' : Nat} (hle : level' ≤ level) : Terms level' x e :=
  fun n above rest v rest' hn ha hr => h n above rest v rest' hn (by omega) (by omega)

theorem Terms.stop (h : Terms level x e) {above : Nat} (hn : 8 * (x ++ rest).length + 4 ≤ n)
    (ha : above + 3 ≤ level) (hr : (headKind rest).reach ≤ level)
    (hop : ∀ op, BinaryOp.ofKind? (headKind rest) = some op → op.precedence ≤ above) :
    Gives (binary (.upTo n) above) (x ++ rest) e rest :=
  h n above rest e rest hn ha hr fun _ hm => .last (by omega) .goOn (operation_stop hop)

theorem Terms.binary {op : BinaryOp} (hl : Terms op.levels.1 x l) (hr : Terms op.levels.2 y r) :
    Terms op.level (x ++ .sign op.kind :: y) (.binary op l r) := by
  intro n above rest v rest' hn ha hrest hloop
  rw [List.append_assoc, List.cons_append] at hn ⊢
  have hle : op.level ≤ op.levels.1 ∧ op.level ≤ op.levels.2 ∧ op.kind.reach ≤ op.levels.1 := by
    cases op <;> decide
  refine hl n above _ v rest' hn (by omega) hle.2.2 fun m hm => ?_
  simp only [List.length_append, List.length_cons] at hn hm
  refine .more (by omega) .goOn (operation_more ?_ (binary_upTo (by omega) (hr.stop ?_ ?_ ?_ ?_))) (hloop _ (by omega))
  · rw [BinaryOp.level, Level.binary] at ha
    omega
  · rw [List.length_append]
    omega
  · exact Nat.le_of_eq op.above_add
  · omega
  · intro op' hop'
    rw [← BinaryOp.kind_of_ofKind? hop'] at hrest
    exact BinaryOp.precedence_le hrest

end Operators

/-! ### Conditionals and assignments -/

/-- No arrow function is seen in front of the lexemes. -/
def Arrowless (ls : List Lexeme) : Prop :=
  ∀ n, 8 * ls.length + 5 ≤ n → Gives (arrow? (.upTo n)) ls none ls

section Assignments

variable {n : Nat} {l r e : Expr} {x y z ls rest : List Lexeme}

theorem conditional_of_terms (h : Terms 3 x e) (hn : 8 * (x ++ rest).length + 5 ≤ n)
    (hr : (headKind rest).reach ≤ 2) : Gives (conditional (.upTo n)) (x ++ rest) e rest := by
  refine .bind (binary_upTo (by omega) (h.stop (by omega) (Nat.le_refl 3) (by omega) fun op hop => ?_)) ?_
  · rw [BinaryOp.ofKind?_eq_none hr] at hop
    cases hop
  · refine .bind (.pass fun hq => ?_) (.no Bool.false_ne_true .pure)
    rw [hq] at hr
    exact absurd hr (by decide)

theorem conditional_gives {test yes no : Expr} (ht : Terms 3 x test) (hy : Whole y yes) (hz : Whole z no)
    (hn : 8 * (x ++ .sign .question :: (y ++ .sign .colon :: (z ++ rest))).length + 5 ≤ n)
    (hr : (headKind rest).reach ≤ 1) :
    Gives (conditional (.upTo n)) (x ++ .sign .question :: (y ++ .sign .colon :: (z ++ rest)))
      (.cond test yes no) rest := by
  refine .bind (binary_upTo (by omega) (ht.stop (by omega) (Nat.le_refl 3) (Nat.le_refl 3) nofun)) ?_
  simp only [List.length_append, List.length_cons] at hn
  refine .bind (.accept rfl) (.yes rfl (.bind (.withIn (assignment_upTo (by omega) (hy _ _ ?_ (Nat.zero_le 1))))
    (.bind .expect (.bind (assignment_upTo (by omega) (hz _ _ ?_ hr)) .pure))))
  all_goals
    simp only [List.length_append, List.length_cons]
    omega

theorem assignment_of_conditional (hn : 8 * ls.length + 5 ≤ n) (ha : Arrowless ls)
    (h : Gives (conditional (.upTo n)) ls e rest) (hr : (headKind rest).reach ≤ 1) :
    Gives (assignment (.upTo n)) ls e rest := by
  refine .bind .kind (.bind .context (.no (by simp) (.bind (ha n hn) (.token fun _ _ => .bind h (.bind .kind ?_)))))
  rw [AssignOp.ofKind?_eq_none hr]
  exact .pure

theorem assignment_gives {op : AssignOp} (hn : 8 * ls.length + 5 ≤ n) (ha : Arrowless ls)
    (h : Gives (conditional (.upTo n)) ls l (.sign op.kind :: y)) (hl : l.isAssignable false)
    (hr : Gives (Sub.upTo n).assignment y r rest) :
    Gives (assignment (.upTo n)) ls (.assign op l r) rest := by
  refine .bind .kind (.bind .context (.no (by simp) (.bind (ha n hn) (.token fun _ _ => .bind h (.bind .kind ?_)))))
  rw [Lexeme.headKind_cons, Lexeme.kind_sign, AssignOp.ofKind?_kind]
  refine .no ?_ (.no ?_ (.bind .next (.bind hr .pure)))
  · simp [Expr.isAssignable_of_false hl]
  · simp [Expr.isPattern_of_isAssignable hl]

theorem Terms.whole (h : Terms 3 x e) (ha : ∀ rest, (headKind rest).reach ≤ 17 → Arrowless (x ++ rest)) :
    Whole x e := fun n rest hn hr =>
  assignment_of_conditional hn (ha rest (by omega)) (conditional_of_terms h hn (by omega)) hr

theorem Whole.cond {test yes no : Expr} (ht : Terms 3 x test)
    (ha : ∀ rest, (headKind rest).reach ≤ 17 → Arrowless (x ++ rest)) (hy : Whole y yes) (hz : Whole z no) :
    Whole (x ++ .sign .question :: (y ++ .sign .colon :: z)) (.cond test yes no) := by
  intro n rest hn hr
  simp only [List.append_assoc, List.cons_append] at hn ⊢
  exact assignment_of_conditional hn (ha _ (Nat.le_add_left 3 14)) (conditional_gives ht hy hz hn hr) hr

theorem Whole.assign {op : AssignOp} (hl : Terms 3 x l) (ht : l.isAssignable false)
    (ha : ∀ rest, (headKind rest).reach ≤ 17 → Arrowless (x ++ rest)) (hr : Whole y r) :
    Whole (x ++ .sign op.kind :: y) (.assign op l r) := by
  intro n rest hn hrest
  rw [List.append_assoc, List.cons_append] at hn ⊢
  have hop : (headKind (.sign op.kind :: (y ++ rest))).reach = 2 := op.reach_kind
  refine assignment_gives hn (ha _ (by omega)) (conditional_of_terms hl hn (by omega)) ht ?_
  simp only [List.length_append, List.length_cons] at hn
  refine assignment_upTo (by omega) (hr (n - 1) rest ?_ hrest)
  rw [List.length_append]
  omega


end Assignments

end Parser

end Deadwood
