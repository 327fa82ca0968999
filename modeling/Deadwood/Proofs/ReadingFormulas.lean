import Deadwood.Proofs.Speculation

/-!
# Reading formulas

Each production of expressions reads the lexemes of the formulas at its level and gives the formula back.
-/

namespace Deadwood

open Lexeme (headKind enclose)
open Deadwood.Parser

/-! ### Levels -/

theorem Expr.asReadList_eq (es : List Expr) : asReadList es = es.map asRead := by
  induction es with
  | nil => rfl
  | cons e es ih => rw [asReadList, ih, List.map_cons]

theorem Expr.lexemesList_eq (es : List Expr) : lexemesList es = es.map (lexemesAt Level.assignment) := by
  induction es with
  | nil => rfl
  | cons e es ih => rw [lexemesList, ih, List.map_cons, lexemesAt]

theorem Expr.Formula.isHole {e : Expr} (h : e.Formula) : e.isHole = false := by cases h <;> rfl

theorem Expr.isAssignable_asRead {e : Expr} (h : e.isAssignable false) : e.asRead.isAssignable false := by
  cases e <;> exact h

/-- What the productions make of the lexemes of an expression, from its own level on. -/
structure Expr.Parses (e : Expr) : Prop where
  opens : (headKind e.lexemes).opens
  phrase : Phrase e.lexemes e.asRead
  params : Params e.lexemes
  calm : 1 ≤ e.level → Calm e.lexemes
  guess : 1 ≤ e.level → Guess e.lexemes
  whole : 1 ≤ e.level → Whole e.lexemes e.asRead
  stops : 2 ≤ e.level → Stops e.lexemes
  terms : 3 ≤ e.level → Terms (min e.level 16) e.lexemes e.asRead
  operand : 15 ≤ e.level → Operand (min e.level 16) e.lexemes e.asRead
  opensHead : 16 ≤ e.level → (headKind e.lexemes).opensHead
  trails : 17 ≤ e.level → Trails suffix e.lexemes e.asRead
  callee : 17 ≤ e.level → e.containsCall = false → Trails calleeSuffix e.lexemes e.asRead
  target : e.isAssignable false → (∃ id, e = .ident id) ∨ Blocked e.lexemes

namespace Expr.Parses

variable {e : Expr}

/-! ### From the level of an expression down -/

theorem params_of_guess (hopens : (headKind e.lexemes).opens) (hg : Guess e.lexemes) : Params e.lexemes := by
  have hparams : Params (Lexeme.commas ([Expr.this].map fun _ => e.lexemes)) :=
    .of_items (List.forall_mem_singleton.2 ⟨rfl, hopens, hg⟩)
  simpa [Lexeme.commas] using hparams

theorem of_phrase (hlevel : e.level = 0) (hopens : (headKind e.lexemes).opens)
    (hphrase : Phrase e.lexemes e.asRead) (hparams : Params e.lexemes)
    (ht : e.isAssignable false = false) : Parses e := by
  refine ⟨hopens, hphrase, hparams, ?_, ?_, ?_, ?_, ?_, ?_, ?_, ?_, ?_, ?_⟩
  all_goals first | omega | simp [ht]

theorem of_whole (hlevel : e.level ≤ 2) (hopens : (headKind e.lexemes).opens) (hc : Calm e.lexemes)
    (hg : Guess e.lexemes) (hw : Whole e.lexemes e.asRead) (hs : 2 ≤ e.level → Stops e.lexemes)
    (ht : e.isAssignable false = false) : Parses e := by
  refine ⟨hopens, hw.phrase, params_of_guess hopens hg, fun _ => hc, fun _ => hg, fun _ => hw, hs, ?_, ?_, ?_, ?_,
    ?_, ?_⟩
  all_goals first | omega | simp [ht]

theorem of_terms (hlevel : e.level ≤ 14) (hlevel' : 3 ≤ e.level) (hopens : (headKind e.lexemes).opens)
    (hc : Calm e.lexemes) (hs : Stops e.lexemes) (hterms : Terms e.level e.lexemes e.asRead)
    (ht : e.isAssignable false = false) : Parses e := by
  have hw : Whole e.lexemes e.asRead := (hterms.mono hlevel').whole fun _ => hc.arrowless
  refine ⟨hopens, hw.phrase, params_of_guess hopens hs.guess, fun _ => hc, fun _ => hs.guess, fun _ => hw,
    fun _ => hs, fun _ => ?_, ?_, ?_, ?_, ?_, ?_⟩
  · exact hterms.mono (Nat.min_le_left _ _)
  all_goals first | omega | simp [ht]

theorem of_operand (hlevel : 15 ≤ e.level) (hlevel' : e.level ≤ 16) (hopens : (headKind e.lexemes).opens)
    (hhead : 16 ≤ e.level → (headKind e.lexemes).opensHead) (hc : Calm e.lexemes) (hs : Stops e.lexemes)
    (ho : Operand e.level e.lexemes e.asRead) (ht : e.isAssignable false = false) : Parses e := by
  have hterms : Terms e.level e.lexemes e.asRead := ho.terms (Nat.le_refl _)
  have hw : Whole e.lexemes e.asRead := (hterms.mono (by omega)).whole fun _ => hc.arrowless
  have hmin : min e.level 16 = e.level := Nat.min_eq_left hlevel'
  refine ⟨hopens, hw.phrase, params_of_guess hopens hs.guess, fun _ => hc, fun _ => hs.guess, fun _ => hw,
    fun _ => hs, fun _ => ?_, fun _ => ?_, hhead, ?_, ?_, ?_⟩
  · rwa [hmin]
  · rwa [hmin]
  all_goals first | omega | simp [ht]

theorem of_trails (hhead : (headKind e.lexemes).opensHead) (hc : Calm e.lexemes) (hs : Stops e.lexemes)
    (htrails : Trails suffix e.lexemes e.asRead)
    (hcallee : e.containsCall = false → Trails calleeSuffix e.lexemes e.asRead)
    (ht : e.isAssignable false → (∃ id, e = .ident id) ∨ Blocked e.lexemes) : Parses e := by
  have hopens : (headKind e.lexemes).opens := by rw [TokenKind.opens, hhead, Bool.true_or, Bool.true_or]
  have ho : Operand 16 e.lexemes e.asRead := htrails.operand hhead
  have hterms : Terms 16 e.lexemes e.asRead := ho.terms (Nat.le_refl _)
  have hw : Whole e.lexemes e.asRead := (hterms.mono (by omega)).whole fun _ => hc.arrowless
  refine ⟨hopens, hw.phrase, params_of_guess hopens hs.guess, fun _ => hc, fun _ => hs.guess, fun _ => hw,
    fun _ => hs, fun _ => hterms.mono (Nat.min_le_right _ _), fun _ => ?_, fun _ => hhead, fun _ => htrails,
    fun _ => hcallee, ht⟩
  intro n rest hn hr
  exact ho n rest hn (Nat.le_trans hr (Nat.min_le_right _ _))

/-! ### In parentheses -/

variable {b : Bool} {step : Sub → Expr → Parser (Expr × Bool)} (h : e.Parses)

include h

theorem parens : Trails step (enclose true e.lexemes) e.asRead := .parens h.phrase

theorem trails_enclose (hb : b = false → 17 ≤ e.level) : Trails suffix (enclose b e.lexemes) e.asRead := by
  cases b with
  | false => exact h.trails (hb rfl)
  | true => exact h.parens

theorem callee_enclose (hb : b = false → 17 ≤ e.level ∧ e.containsCall = false) :
    Trails calleeSuffix (enclose b e.lexemes) e.asRead := by
  cases b with
  | false => exact h.callee (hb rfl).1 (hb rfl).2
  | true => exact h.parens

theorem opensHead_enclose (hb : b = false → 16 ≤ e.level) : (headKind (enclose b e.lexemes)).opensHead := by
  cases b with
  | false => exact h.opensHead (hb rfl)
  | true => rfl

theorem opens_enclose : (headKind (enclose b e.lexemes)).opens := by
  cases b with
  | false => exact h.opens
  | true => rfl

theorem operand_enclose {level : Nat} (hl : 15 ≤ level ∧ level ≤ 16) (hb : b = false → level ≤ e.level) :
    Operand level (enclose b e.lexemes) e.asRead := by
  intro n rest hn hr
  cases b with
  | false =>
    have hlevel := hb rfl
    exact h.operand (by omega) n rest hn (by omega)
  | true => exact h.parens.operand rfl n rest hn (by omega)

theorem terms_enclose {level : Nat} (hl : 3 ≤ level ∧ level ≤ 16) (hb : b = false → level ≤ e.level) :
    Terms level (enclose b e.lexemes) e.asRead := by
  cases b with
  | false =>
    have hlevel := hb rfl
    exact (h.terms (by omega)).mono (by omega)
  | true => exact (h.parens.operand rfl).terms hl.2

theorem calm_enclose (hb : b = false → 1 ≤ e.level) : Calm (enclose b e.lexemes) := by
  cases b with
  | false => exact h.calm (hb rfl)
  | true => exact .parens h.params

omit h in
theorem blocked_enclose (x : List Lexeme) : Blocked (enclose true x) := .of_headKind nofun rfl

theorem stops_enclose (hb : b = false → 2 ≤ e.level) : Stops (enclose b e.lexemes) := by
  cases b with
  | false => exact h.stops (hb rfl)
  | true => exact (blocked_enclose _).stops

theorem guess_enclose (hb : b = false → 1 ≤ e.level) : Guess (enclose b e.lexemes) := by
  cases b with
  | false => exact h.guess (hb rfl)
  | true => exact (blocked_enclose _).stops.guess

theorem whole_enclose (hb : b = false → 1 ≤ e.level) : Whole (enclose b e.lexemes) e.asRead := by
  cases b with
  | false => exact h.whole (hb rfl)
  | true => exact (h.parens.operand rfl |>.terms (by omega)).whole fun _ => (Calm.parens h.params).arrowless

theorem item : Item (e.lexemesAt Level.assignment) e.asRead :=
  ⟨h.opens_enclose, h.whole_enclose fun hb => Nat.le_of_not_lt (of_decide_eq_false hb)⟩

end Expr.Parses

/-! ### Literals and variables -/

namespace Expr.Formula

open Expr.Parses

theorem ofWord?_of_isVariable {w : String} (h : Text.isVariable w) : TokenKind.ofWord? w = none := by
  simp only [Text.isVariable, Bool.and_eq_true, Option.isNone_iff_eq_none] at h
  exact h.1.2

theorem isPrivate_of_isVariable {w : String} (h : Text.isVariable w) : isPrivate w = false := by
  simp only [Text.isVariable, Bool.and_eq_true] at h
  exact isPrivate_of_isName h.1.1

theorem kind_of_isVariable {w : String} (h : Text.isVariable w) : (Lexeme.word w).kind = .name := by
  rw [Lexeme.kind, ofWord?_of_isVariable h]
  rfl

theorem parses_ident {id : Ident} (h : Text.isVariable id.name) : (Expr.ident id).Parses := by
  have hw := ofWord?_of_isVariable h
  have hp := isPrivate_of_isVariable h
  have hk := kind_of_isVariable h
  have htrails : ∀ step, Trails step [.word id.name] (.ident { name := id.name }) := fun step =>
    .of_primary (hk ▸ by decide) fun n rest _ hr => primary_ident hw hp hr
  refine of_trails ?_ (.word hw hp) (.word hw hp) (htrails _) (fun _ => htrails _) fun _ => .inl ⟨id, rfl⟩
  show (Lexeme.word id.name).kind.opensHead
  rw [hk]
  rfl

/-- A literal of one token that no binding begins with. -/
theorem parses_literal {e : Expr} {l : Lexeme} (hl : l.kind.opensHead) (hb : opensBinding l.kind = false)
    (hn : l.kind ≠ .newKw) (hp : l.kind ≠ .leftParen) (hlexemes : e.lexemes = [l])
    (h : ∀ sub rest, Gives (primary sub) (l :: rest) e.asRead rest) : e.Parses := by
  have htrails : ∀ step, Trails step [l] e.asRead := fun step =>
    .of_primary hn fun n rest _ _ => h (.upTo n) rest
  have hblocked : Blocked [l] := .of_headKind nofun hb
  refine of_trails ?_ ?_ ?_ ?_ ?_ ?_ <;> rw [hlexemes]
  · exact hl
  · exact .of_headKind nofun (namesBinding_of_opensBinding hb) hp
  · exact hblocked.stops
  · exact htrails _
  · exact fun _ => htrails _
  · exact fun _ => .inr hblocked

theorem parses_this : Expr.this.Parses :=
  parses_literal (l := .sign .thisKw) rfl rfl nofun nofun rfl fun _ _ => primary_this

theorem parses_null : Expr.null.Parses :=
  parses_literal (l := .word "null") rfl rfl nofun nofun rfl fun _ _ => primary_null

theorem parses_bool (b : Bool) : (Expr.bool b).Parses := by
  refine parses_literal (l := .word (if b then "true" else "false")) ?_ ?_ ?_ ?_ rfl fun _ _ => primary_bool b
  all_goals cases b <;> decide

theorem parses_number (digits : String) : (Expr.number (Token.numberOf digits) (some digits)).Parses :=
  parses_literal (l := .number digits) rfl rfl nofun nofun rfl fun _ _ => primary_number digits

theorem parses_string (value : String) : (Expr.string ⟨value, none⟩).Parses :=
  parses_literal (l := .string value) rfl rfl nofun nofun rfl fun _ _ => primary_string value

theorem parses_array {es : List Expr} (hes : ∀ e ∈ es, e.isHole = false → e.Parses) : (Expr.array es).Parses := by
  have hlexemes : (Expr.array es).lexemes =
      .sign .leftBracket :: (elements (lexemesAt Level.assignment) es ++ [.sign .rightBracket]) := by
    rw [lexemes, lexemesList_eq, elements]
  have htrails : ∀ step, Trails step (Expr.array es).lexemes (Expr.array es).asRead := by
    intro step
    rw [hlexemes, asRead, asReadList_eq]
    refine .array fun e he => ?_
    rw [Element]
    split
    · exact ⟨rfl, rfl⟩
    · exact (hes e he (Bool.eq_false_iff.2 ‹_›)).item
  refine of_trails rfl ?_ ?_ (htrails _) (fun _ => htrails _) Bool.noConfusion
  · rw [hlexemes]
    exact .of_headKind (List.cons_ne_nil _ _) rfl TokenKind.noConfusion
  · rw [hlexemes]
    refine .array fun e he => ?_
    rw [Bound]
    split
    · rfl
    · have h := hes e he (Bool.eq_false_iff.2 ‹_›)
      exact ⟨h.item.opens, h.guess_enclose fun hb => Nat.le_of_not_lt (of_decide_eq_false hb)⟩

/-! ### Operators -/

section Operators

variable {k : TokenKind} {x : List Lexeme}

theorem calm_sign (hk : opensBinding k = false) (hp : k ≠ .leftParen) : Calm (.sign k :: x) :=
  .of_headKind nofun (namesBinding_of_opensBinding hk) hp

theorem blocked_sign (hk : opensBinding k = false) : Blocked (.sign k :: x) := .of_headKind nofun hk

theorem level_le {e : Expr} {level : Nat} (h : decide (e.level < level) = false) : level ≤ e.level :=
  Nat.le_of_not_lt (of_decide_eq_false h)

theorem parses_unary (op : UnaryOp) {e : Expr} (h : e.Parses) : (Expr.unary op e).Parses := by
  have hk : opensBinding op.kind = false ∧ op.kind ≠ .leftParen := by cases op <;> decide
  refine of_operand (Nat.le_refl 15) (Nat.le_succ 15) ?_ (fun hlevel => absurd hlevel (Nat.lt_irrefl 15))
    (calm_sign hk.1 hk.2) (blocked_sign hk.1).stops ((h.operand_enclose (by decide) level_le).unary op) rfl
  cases op <;> rfl

theorem headKind_append {y : List Lexeme} (h : (headKind x).opens) : headKind (x ++ y) = headKind x :=
  headKind_append_of_opens h y

theorem parses_update (op : UpdateOp) {e : Expr} (post : Bool) (h : e.Parses) (ht : e.isAssignable false) :
    (Expr.update op e post).Parses := by
  have hk : opensBinding op.kind = false ∧ op.kind ≠ .leftParen := by cases op <;> decide
  have hk' : makesArrow op.kind = false ∧ endsBinding op.kind = false := by cases op <;> decide
  have ht := Expr.isAssignable_asRead ht
  cases post with
  | false =>
    refine of_operand (Nat.le_refl 15) (Nat.le_succ 15) ?_ (fun hlevel => absurd hlevel (Nat.lt_irrefl 15))
      (calm_sign hk.1 hk.2) (blocked_sign hk.1).stops ((h.operand_enclose (by decide) level_le).updated op ht) rfl
    cases op <;> rfl
  | true =>
    have hb : decide (e.level < Level.call) = false → 17 ≤ e.level := level_le
    have hhead := h.opensHead_enclose fun hb' => Nat.le_of_succ_le (hb hb')
    have hhead' : (headKind (Expr.update op e true).lexemes).opensHead := headKind_append_of_opensHead hhead _
    refine of_operand (Nat.le_succ 15) (Nat.le_refl 16) ?_ (fun _ => hhead')
      (Calm.append (l := .sign op.kind) (h.calm_enclose fun hb' => Nat.le_trans (by decide) (hb hb')) hk'.1 [])
      (Stops.blocked (l := .sign op.kind) (h.stops_enclose fun hb' => Nat.le_trans (by decide) (hb hb')) hk'.2 []).stops
      ((h.trails_enclose hb).updated hhead op ht) rfl
    rw [TokenKind.opens, hhead', Bool.true_or, Bool.true_or]

/-- An operator after an operand leaves no binding and no arrow function. -/
structure Joined (b : Bool) (e : Expr) (x : List Lexeme) : Prop where
  opens : (headKind x).opens
  calm : Calm x
  blocked : Blocked x
  head : headKind x = headKind (enclose b e.lexemes)

theorem joined {b : Bool} {e : Expr} (h : e.Parses) (hb : b = false → 2 ≤ e.level)
    (hk : makesArrow k = false ∧ endsBinding k = false) (y : List Lexeme) :
    Joined b e (enclose b e.lexemes ++ .sign k :: y) := by
  have hhead := headKind_append_of_opens (h.opens_enclose (b := b)) (.sign k :: y)
  refine ⟨hhead ▸ h.opens_enclose, ?_, ?_, hhead⟩
  · exact Calm.append (l := .sign k) (h.calm_enclose fun hb' => Nat.le_of_succ_le (hb hb')) hk.1 y
  · exact Stops.blocked (l := .sign k) (h.stops_enclose hb) hk.2 y

theorem le_operandLevel (op : BinaryOp) (e : Expr) {level : Nat} (h : level ≤ 16) :
    level ≤ op.operandLevel e level := by
  rw [BinaryOp.operandLevel]
  split
  · exact Nat.le_trans h (by decide)
  · exact Nat.le_refl _

theorem parses_binary (op : BinaryOp) {l r : Expr} (hl : l.Parses) (hr : r.Parses) :
    (Expr.binary op l r).Parses := by
  have hlevels : (3 ≤ op.levels.1 ∧ op.levels.1 ≤ 16) ∧ (3 ≤ op.levels.2 ∧ op.levels.2 ≤ 16) ∧
      3 ≤ op.level ∧ op.level ≤ 14 := by cases op <;> decide
  have hk : makesArrow op.kind = false ∧ endsBinding op.kind = false := by cases op <;> decide
  have hbl : decide (l.level < op.operandLevel l op.levels.1) = false → op.levels.1 ≤ l.level :=
    fun hb => Nat.le_trans (le_operandLevel op l hlevels.1.2) (level_le hb)
  have hbr : decide (r.level < op.operandLevel r op.levels.2) = false → op.levels.2 ≤ r.level :=
    fun hb => Nat.le_trans (le_operandLevel op r hlevels.2.1.2) (level_le hb)
  have hjoined := joined hl (fun hb => Nat.le_trans (Nat.le_of_succ_le hlevels.1.1) (hbl hb)) hk
    (enclose (r.level < op.operandLevel r op.levels.2) r.lexemes)
  exact of_terms hlevels.2.2.2 hlevels.2.2.1 hjoined.opens hjoined.calm hjoined.blocked.stops
    ((hl.terms_enclose hlevels.1 hbl).binary (hr.terms_enclose hlevels.2.1 hbr)) rfl

/-- A variable that is assigned to can be taken for a binding with a default. -/
theorem guess_assign (op : AssignOp) {l : Expr} (hl : l.Formula) (hpl : l.Parses) (ht : l.isAssignable false)
    {y : List Lexeme} {r : Expr} (hy : Whole y r) :
    Guess (enclose (l.level < Level.call) l.lexemes ++ .sign op.kind :: y) := by
  obtain ⟨id, rfl⟩ | hblocked := hpl.target ht
  · have hid : Text.isVariable id.name := by cases hl; assumption
    have hw := ofWord?_of_isVariable hid
    have hp := isPrivate_of_isVariable hid
    by_cases hop : op = .assign
    · subst hop
      exact .assign hw hp hy
    · refine (Stops.blocked (l := .sign op.kind) (.word hw hp) ?_ y).stops.guess
      cases op <;> first | rfl | exact absurd rfl hop
  · have h : Blocked (enclose (l.level < Level.call) l.lexemes) := by
      cases decide (l.level < Level.call) with
      | false => exact hblocked
      | true => exact blocked_enclose _
    exact (h.append _).stops.guess

theorem parses_assign (op : AssignOp) {l r : Expr} (hl : l.Formula) (hpl : l.Parses) (ht : l.isAssignable false)
    (hr : r.Parses) : (Expr.assign op l r).Parses := by
  have hbl : decide (l.level < Level.call) = false → 17 ≤ l.level := level_le
  have hk : makesArrow op.kind = false := by cases op <;> rfl
  have hterms : Terms 3 (enclose (l.level < Level.call) l.lexemes) l.asRead :=
    hpl.terms_enclose (by decide) fun hb => Nat.le_trans (by decide) (hbl hb)
  have hcalm : Calm (enclose (l.level < Level.call) l.lexemes) :=
    hpl.calm_enclose fun hb => Nat.le_trans (by decide) (hbl hb)
  have hwhole : Whole (enclose (r.level < Level.assignment) r.lexemes) r.asRead := hr.whole_enclose level_le
  have hhead := headKind_append_of_opens (hpl.opens_enclose (b := l.level < Level.call))
    (.sign op.kind :: enclose (r.level < Level.assignment) r.lexemes)
  refine of_whole (Nat.le_succ 1) (hhead ▸ hpl.opens_enclose) (Calm.append (l := .sign op.kind) hcalm hk _)
    (guess_assign op hl hpl ht hwhole)
    (.assign hterms (Expr.isAssignable_asRead ht) (fun _ => hcalm.arrowless) hwhole)
    (fun h => absurd h (Nat.lt_irrefl 1)) rfl

theorem parses_cond {test yes no : Expr} (ht : test.Parses) (hy : yes.Parses) (hn : no.Parses) :
    (Expr.cond test yes no).Parses := by
  have hb : decide (test.level < Level.conditional + 1) = false → 3 ≤ test.level := level_le
  have hjoined := joined (k := .question) ht (fun hb' => Nat.le_of_succ_le (hb hb')) ⟨rfl, rfl⟩
    (enclose (yes.level < Level.assignment) yes.lexemes ++
      .sign .colon :: enclose (no.level < Level.assignment) no.lexemes)
  have hcalm := ht.calm_enclose fun hb' => Nat.le_trans (by decide) (hb hb')
  exact of_whole (Nat.le_refl 2) hjoined.opens hjoined.calm hjoined.blocked.stops.guess
    (.cond (ht.terms_enclose (by decide) hb) (fun _ => hcalm.arrowless) (hy.whole_enclose level_le)
      (hn.whole_enclose level_le)) (fun _ => hjoined.blocked.stops) rfl

end Operators

/-! ### Members, calls and sequences -/

theorem parses_seq {es : List Expr} (hlength : 2 ≤ es.length) (hes : ∀ e ∈ es, e.isHole = false ∧ e.Parses) :
    (Expr.seq es).Parses := by
  have hlexemes : (Expr.seq es).lexemes = Lexeme.commas (es.map (lexemesAt Level.assignment)) := by
    rw [lexemes, lexemesList_eq]
  have hopens : (headKind (Expr.seq es).lexemes).opens := by
    cases es with
    | nil => simp at hlength
    | cons e es =>
      have he := (hes e List.mem_cons_self).2.item.opens
      rw [hlexemes, List.map_cons, Lexeme.commas, headKind_append_of_opens he]
      exact he
  refine of_phrase rfl hopens ?_ ?_ rfl
  · rw [hlexemes, asRead, asReadList_eq]
    exact .seq (fun e he => (hes e he).2.item) hlength
  · rw [hlexemes]
    exact .of_items fun e he => ⟨(hes e he).1, (hes e he).2.item.opens, (hes e he).2.guess_enclose level_le⟩

theorem args_of_parses {es : List Expr} (hes : ∀ e ∈ es, e.isHole = false ∧ e.Parses) :
    Args (Lexeme.commas (lexemesList es)) (asReadList es) := by
  rw [lexemesList_eq, asReadList_eq]
  exact .of_items fun e he => (hes e he).2.item

theorem params_of_parses {es : List Expr} (hes : ∀ e ∈ es, e.isHole = false ∧ e.Parses) :
    Params (Lexeme.commas (lexemesList es)) := by
  rw [lexemesList_eq]
  exact .of_items fun e he => ⟨(hes e he).1, (hes e he).2.item.opens, (hes e he).2.guess_enclose level_le⟩

theorem parses_call {callee : Expr} {args : List Expr} (hc : callee.Parses)
    (hes : ∀ e ∈ args, e.isHole = false ∧ e.Parses) : (Expr.call callee args false).Parses := by
  have hb : decide (callee.level < Level.call) = false → 17 ≤ callee.level := level_le
  have hle : ∀ {n}, n ≤ 17 → decide (callee.level < Level.call) = false → n ≤ callee.level :=
    fun hn hb' => Nat.le_trans hn (hb hb')
  refine of_trails (headKind_append_of_opensHead (hc.opensHead_enclose (hle (by decide))) _)
    ((hc.calm_enclose (hle (by decide))).call (params_of_parses hes)) ?_ ?_ nofun nofun
  · exact (Stops.blocked (l := .sign .leftParen) (hc.stops_enclose (hle (by decide))) rfl _).stops
  · exact (hc.trails_enclose hb).call (args_of_parses hes)

theorem parses_new {callee : Expr} {args : List Expr} (hc : callee.Parses)
    (hes : ∀ e ∈ args, e.isHole = false ∧ e.Parses) : (Expr.new callee args).Parses := by
  have htrails : ∀ step, Trails step (Expr.new callee args).lexemes (Expr.new callee args).asRead := by
    intro step
    refine .new (hc.callee_enclose fun hb => ?_) ?_ (args_of_parses hes)
    · rw [Bool.or_eq_false_iff] at hb
      exact ⟨level_le hb.2, hb.1⟩
    · have hopens := hc.opens_enclose (b := callee.containsCall || callee.level < Level.call)
      intro hdot
      rw [hdot] at hopens
      cases hopens
  exact of_trails rfl (calm_sign rfl nofun) (blocked_sign rfl).stops (htrails _) (fun _ => htrails _) nofun

theorem parses_member {o : Expr} {name : Ident} (ho : o.Parses) (hname : Text.isName name.name) :
    (Expr.member o name false).Parses := by
  have hb : (o.isBareInteger || decide (o.level < Level.call)) = false → 17 ≤ o.level :=
    fun hb => level_le (Bool.or_eq_false_iff.1 hb).2
  have hjoined := joined (k := .dot) ho (fun hb' => Nat.le_trans (by decide) (hb hb')) ⟨rfl, rfl⟩ [.word name.name]
  refine of_trails (headKind_append_of_opensHead (ho.opensHead_enclose fun hb' => Nat.le_of_succ_le (hb hb')) _)
    hjoined.calm hjoined.blocked.stops ((ho.trails_enclose hb).member .suffix hname) (fun hcall => ?_)
    fun _ => .inr hjoined.blocked
  exact (ho.callee_enclose fun hb' => ⟨hb hb', hcall⟩).member .callee hname

theorem parses_index {o key : Expr} (ho : o.Parses) (hk : key.Parses) : (Expr.index o key false).Parses := by
  have hb : (o.isBareInteger || decide (o.level < Level.call)) = false → 17 ≤ o.level :=
    fun hb => level_le (Bool.or_eq_false_iff.1 hb).2
  have hjoined := joined (k := .leftBracket) ho (fun hb' => Nat.le_trans (by decide) (hb hb')) ⟨rfl, rfl⟩
    (enclose (key.level < Level.sequence) key.lexemes ++ [.sign .rightBracket])
  have hphrase : Phrase (enclose (key.level < Level.sequence) key.lexemes) key.asRead := hk.phrase
  refine of_trails (headKind_append_of_opensHead (ho.opensHead_enclose fun hb' => Nat.le_of_succ_le (hb hb')) _)
    hjoined.calm hjoined.blocked.stops ((ho.trails_enclose hb).index .suffix hphrase) (fun hcall => ?_)
    fun _ => .inr hjoined.blocked
  exact (ho.callee_enclose fun hb' => ⟨hb hb', hcall⟩).index .callee hphrase

/-- By induction on the formula. -/
theorem parses {e : Expr} (h : e.Formula) : e.Parses := by
  induction h with
  | ident id hv => exact parses_ident hv
  | this => exact parses_this
  | null => exact parses_null
  | bool b => exact parses_bool b
  | string value => exact parses_string value
  | number digits => exact parses_number digits
  | array es _ ih => exact parses_array ih
  | unary op _ ih => exact parses_unary op ih
  | update op post _ ht ih => exact parses_update op post ih ht
  | binary op _ _ ihl ihr => exact parses_binary op ihl ihr
  | assign op hl ht _ ihl ihr => exact parses_assign op hl ihl ht ihr
  | cond _ _ _ iht ihy ihn => exact parses_cond iht ihy ihn
  | seq es hlength h ih => exact parses_seq hlength fun e he => ⟨(h e he).isHole, ih e he⟩
  | call args _ h ihc ih => exact parses_call ihc fun e he => ⟨(h e he).isHole, ih e he⟩
  | new args _ h ihc ih => exact parses_new ihc fun e he => ⟨(h e he).isHole, ih e he⟩
  | member name _ hname ih => exact parses_member ih hname
  | index _ _ iho ihk => exact parses_index iho ihk

end Expr.Formula

end Deadwood
