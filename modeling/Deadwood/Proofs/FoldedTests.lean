import Deadwood.Elimination.Traversal
import Deadwood.Proofs.Inlining
import Deadwood.Proofs.Plain

/-!
# Folded tests keep values

Of an expression without functions and classes, a pass that inlines nothing folds the conditional expressions whose
tests it knows, from the inside out, and leaves the rest as it is.  What is folded has the value that it had
before, and it has no effects if it had none before.
-/

namespace Deadwood

open Elimination

/-! ### Folding without a state -/

/-- An expression in a place where it may mean something else as a reference. -/
def Elimination.OperandRole.place (role : OperandRole) (e : Expr) : Expr :=
  if role.distinguishes e then .seq [.number 0 none, e] else e

/-- A conditional expression, or its branch if the test is known. -/
def Elimination.OperandRole.choose (role : OperandRole) (test yes no : Expr) : Expr :=
  match test.truthy? with
  | none => .cond test yes no
  | some b => role.place (if b then yes else no)

mutual

/-- An expression with the tests folded that are known; it stands in the given role. -/
def Expr.foldTests (role : OperandRole) : Expr → Expr
  | .template tag chunks es => .template (Expr.foldTestsOpt .callee tag) chunks (Expr.foldTestsList es)
  | .array es => .array (Expr.foldTestsList es)
  | .object ps => .object (Property.foldTestsList ps)
  | .spread e => .spread (e.foldTests .value)
  | .unary op e => .unary op (e.foldTests op.operandRole)
  | .update op e post => .update op (e.foldTests .value) post
  | .binary op l r => .binary op (l.foldTests .value) (r.foldTests .value)
  | .assign op l r => .assign op (l.foldTests .value) (r.foldTests .value)
  | .cond test yes no => role.choose (test.foldTests .value) (yes.foldTests .value) (no.foldTests .value)
  | .seq es => .seq (Expr.foldTestsList es)
  | .call callee args optional => .call (callee.foldTests .callee) (Expr.foldTestsList args) optional
  | .new callee args => .new (callee.foldTests .value) (Expr.foldTestsList args)
  | .member object name optional => .member (object.foldTests .value) name optional
  | .index object key optional => .index (object.foldTests .value) (key.foldTests .value) optional
  | .await e => .await (e.foldTests .value)
  | .yield arg delegate => .yield (Expr.foldTestsOpt .value arg) delegate
  | e => e

def Expr.foldTestsOpt (role : OperandRole) : Option Expr → Option Expr
  | none => none
  | some e => some (e.foldTests role)

def Expr.foldTestsList : List Expr → List Expr
  | [] => []
  | e :: es => e.foldTests .value :: Expr.foldTestsList es

def Property.foldTests : Property → Property
  | .short id init => .short id (Expr.foldTestsOpt .value init)
  | .keyed key kind value computed =>
    .keyed (if computed then key.foldTests .value else key) kind (value.foldTests .value) computed
  | .spread e => .spread (e.foldTests .value)

def Property.foldTestsList : List Property → List Property
  | [] => []
  | p :: ps => p.foldTests :: Property.foldTestsList ps

end

/-! ### What stands for an expression -/

/-- A name or a text; where it stands, other rules than those of evaluation look at it. -/
def Expr.isWord : Expr → Bool
  | .ident _ | .string _ => true
  | _ => false

/-- What is read off the syntax of the first expression holds of the second, too. -/
structure Expr.KeepsSyntax (e e' : Expr) : Prop where
  word : e.isWord = true → e' = e
  trap : e.mayTrap = false → e'.mayTrap = false
  callee : e.isPureCallee = true → e'.isPureCallee = true
  type : ∀ s, e.objectTypeName? = some s → e'.objectTypeName? = some s

/-- The second expression can stand for the first: it has its value, if there is one, and no effects if the first
has none, and whatever is read off the syntax of the first still holds of it. -/
structure Expr.Improves (e e' : Expr) : Prop extends e.KeepsSyntax e' where
  value : ∀ v, e.value? = some v → e'.value? = some v
  effects : e.mayHaveEffects = false → e'.mayHaveEffects = false
  code : e.hasCode = false → e'.hasCode = false

structure Property.Improves (p p' : Property) : Prop where
  effects : p.mayHaveEffects = false → p'.mayHaveEffects = false
  code : p.fold .code = false → p'.fold .code = false
  dynamic : p.isDynamic = false → p'.isDynamic = false

namespace Property.Improves

variable {ps ps' : List Property}

theorem anyEffects (h : List.Forall₂ Property.Improves ps ps') (hp : Property.anyEffects ps = false) :
    Property.anyEffects ps' = false := by
  induction h with
  | nil => rfl
  | cons h _ ih =>
    obtain ⟨hp, hps⟩ := Bool.or_eq_false_iff.1 hp
    exact Bool.or_eq_false_iff.2 ⟨h.effects hp, ih hps⟩

theorem foldList_code (h : List.Forall₂ Property.Improves ps ps') (hp : Property.foldList .code ps = false) :
    Property.foldList .code ps' = false := by
  induction h with
  | nil => rfl
  | cons h _ ih =>
    obtain ⟨hp, hps⟩ := Bool.or_eq_false_iff.1 hp
    exact Bool.or_eq_false_iff.2 ⟨h.code hp, ih hps⟩

theorem any_isDynamic (h : List.Forall₂ Property.Improves ps ps') (hp : ps.any Property.isDynamic = false) :
    ps'.any Property.isDynamic = false := by
  induction h with
  | nil => rfl
  | cons h _ ih =>
    obtain ⟨hp, hps⟩ := Bool.or_eq_false_iff.1 hp
    exact Bool.or_eq_false_iff.2 ⟨h.dynamic hp, ih hps⟩

end Property.Improves

namespace Expr

variable {e e' l l' r r' : Expr} {es es' : List Expr} {v : Value}

/-- Off the syntax of most expressions nothing is read. -/
theorem KeepsSyntax.vacuous (hw : e.isWord = false) (ht : e.mayTrap = true) (hc : e.isPureCallee = false)
    (hn : e.objectTypeName? = none) : e.KeepsSyntax e' where
  word h := by
    rw [hw] at h
    cases h
  trap h := by
    rw [ht] at h
    cases h
  callee h := by
    rw [hc] at h
    cases h
  type s h := by
    rw [hn] at h
    cases h

/-- What has a value is no object. -/
theorem objectTypeName?_of_value (h : e.value? = some v) : e.objectTypeName? = none := by
  cases e with
  | func _ | arrow | arrowBlock | object _ | array _ | regExp => cases h
  | _ => rfl

namespace Improves

theorem refl (e : Expr) : e.Improves e where
  value _ h := h
  effects h := h
  code h := h
  word _ := rfl
  trap h := h
  callee h := h
  type _ h := h

theorem string? (h : e.Improves e') {s : String} (hs : e.string? = some s) : e'.string? = some s := by
  cases e with
  | string lit => rw [h.word rfl, hs]
  | _ => cases hs

theorem isGlobal (h : e.Improves e') {name : String} (hg : e.isGlobal name = true) : e'.isGlobal name = true := by
  cases e with
  | ident id => rw [h.word rfl, hg]
  | _ => cases hg

theorem isPureMethod (h : e.Improves e') {name : Option String} (hm : e.isPureMethod name = true) :
    e'.isPureMethod name = true := by
  unfold Expr.isPureMethod at hm ⊢
  split at hm
  · next hg => rw [if_pos (h.isGlobal hg), hm]
  · obtain ⟨hs, -⟩ := Bool.and_eq_true_iff.1 hm
    obtain ⟨s, hs⟩ := Option.isSome_iff_exists.1 hs
    cases e with
    | string lit =>
      rw [h.word rfl]
      exact hm
    | _ => cases hs

theorem textLength? (h : e.Improves e') {name name' : Option String} (hn : ∀ s, name = some s → name' = some s)
    (hv : e.textLength? name = some v) : e'.textLength? name' = some v := by
  unfold Expr.textLength? at hv ⊢
  split at hv
  · next hname =>
    obtain ⟨s, hs, rfl⟩ := Option.map_eq_some_iff.1 hv
    rw [if_pos (hn _ hname), h.string? hs]
    rfl
  · cases hv

/-! ### Lists -/

theorem weaveValues? (h : List.Forall₂ Improves es es') (chunks : List TemplateChunk) {s : String}
    (hs : Expr.weaveValues? chunks es = some s) : Expr.weaveValues? chunks es' = some s := by
  induction h generalizing chunks s with
  | nil => exact hs
  | cons he _ ih =>
    cases chunks with
    | nil => exact hs
    | cons c chunks =>
      obtain ⟨v, hv, hs⟩ := Option.bind_eq_some_iff.1 hs
      obtain ⟨rest, hrest, hs⟩ := Option.bind_eq_some_iff.1 hs
      refine Option.bind_eq_some_iff.2 ⟨v, he.value v hv, ?_⟩
      exact Option.bind_eq_some_iff.2 ⟨rest, ih chunks hrest, hs⟩

theorem anyEffects (h : List.Forall₂ Improves es es') (he : Expr.anyEffects es = false) :
    Expr.anyEffects es' = false := by
  induction h with
  | nil => rfl
  | cons h _ ih =>
    obtain ⟨he, hes⟩ := Bool.or_eq_false_iff.1 he
    exact Bool.or_eq_false_iff.2 ⟨h.effects he, ih hes⟩

theorem foldList_code (h : List.Forall₂ Improves es es') (he : Expr.foldList .code es = false) :
    Expr.foldList .code es' = false := by
  induction h with
  | nil => rfl
  | cons h _ ih =>
    obtain ⟨he, hes⟩ := Bool.or_eq_false_iff.1 he
    exact Bool.or_eq_false_iff.2 ⟨h.code he, ih hes⟩

theorem lastValue? (h : List.Forall₂ Improves es es') (hv : Expr.lastValue? es = some v) :
    Expr.lastValue? es' = some v := by
  induction h with
  | nil => cases hv
  | cons h hs ih =>
    cases hs with
    | nil => exact h.value v hv
    | cons =>
      simp only [Expr.lastValue?] at hv ih ⊢
      split at hv
      · cases hv
      · next he =>
        rw [if_neg (Bool.eq_false_iff.1 (h.effects (Bool.eq_false_iff.2 he)))]
        exact ih hv

/-! ### Parts of expressions -/

theorem template {tag tag' : Option Expr} (chunks : List TemplateChunk) (ht : Option.Rel Improves tag tag')
    (h : List.Forall₂ Improves es es') : (Expr.template tag chunks es).Improves (.template tag' chunks es') := by
  cases ht with
  | none =>
    exact {
      value := fun v hv => by
        obtain ⟨s, hs, rfl⟩ := Option.map_eq_some_iff.1 hv
        exact Option.map_eq_some_iff.2 ⟨s, weaveValues? h chunks hs, rfl⟩
      effects := anyEffects h
      code := foldList_code h
      toKeepsSyntax := .vacuous rfl rfl rfl rfl }
  | some ht =>
    exact {
      value := nofun
      effects := nofun
      code := fun hc => by
        obtain ⟨htag, hes⟩ := Bool.or_eq_false_iff.1 hc
        exact Bool.or_eq_false_iff.2 ⟨ht.code htag, foldList_code h hes⟩
      toKeepsSyntax := .vacuous rfl rfl rfl rfl }

theorem array (h : List.Forall₂ Improves es es') : (Expr.array es).Improves (.array es') where
  value := nofun
  effects := anyEffects h
  code := foldList_code h
  word := nofun
  trap := nofun
  callee := nofun
  type _ hs := hs

theorem seq (h : List.Forall₂ Improves es es') : (Expr.seq es).Improves (.seq es') where
  value _ := lastValue? h
  effects := anyEffects h
  code := foldList_code h
  toKeepsSyntax := .vacuous rfl rfl rfl rfl

theorem object {ps ps' : List Property} (h : List.Forall₂ Property.Improves ps ps') :
    (Expr.object ps).Improves (.object ps') where
  value := nofun
  effects := Property.Improves.anyEffects h
  code := Property.Improves.foldList_code h
  word := nofun
  trap := Property.Improves.any_isDynamic h
  callee := nofun
  type _ hs := hs

/-- Of the parts of what surely has effects and no value, only the literals matter. -/
theorem of_effects (hv : e.value? = none) (he : e.mayHaveEffects = true) (hw : e.isWord = false)
    (ht : e.mayTrap = true) (hc : e.isPureCallee = false) (hn : e.objectTypeName? = none)
    (hcode : e.hasCode = false → e'.hasCode = false) : e.Improves e' where
  value v h := by
    rw [hv] at h
    cases h
  effects h := by
    rw [he] at h
    cases h
  code := hcode
  toKeepsSyntax := .vacuous hw ht hc hn

theorem unary (op : UnaryOp) (h : e.Improves e') : (Expr.unary op e).Improves (.unary op e') where
  value v hv := by
    simp only [Expr.value?] at hv ⊢
    split at hv
    · next hop =>
      rw [if_pos hop]
      split at hv
      · cases hv
      · next he =>
        rw [if_neg (Bool.eq_false_iff.1 (h.effects (Bool.eq_false_iff.2 he)))]
        exact hv
    · next hop =>
      rw [if_neg hop]
      split at hv
      · next s hs =>
        split at hs
        · next htypeof =>
          rw [if_pos htypeof, h.type s hs]
          simp only
          split at hv
          · cases hv
          · next he =>
            rw [if_neg (Bool.eq_false_iff.1 (h.effects (Bool.eq_false_iff.2 he)))]
            exact hv
        · cases hs
      · obtain ⟨w, hw, hv⟩ := Option.bind_eq_some_iff.1 hv
        rw [objectTypeName?_of_value (h.value w hw), ite_self]
        exact Option.bind_eq_some_iff.2 ⟨w, h.value w hw, hv⟩
  effects he := by
    -- The operand of `typeof` may be a name that nothing declares; a name is kept as it is.
    cases hw : e.isWord with
    | true =>
      rw [h.word hw]
      exact he
    | false =>
      have hoperand : e.mayHaveEffects = false := by
        cases op with
        | delete => cases he
        | typeof => cases e <;> first | exact he | cases hw
        | _ => exact he
      have hoperand' := h.effects hoperand
      cases op with
      | delete => cases he
      | typeof => cases e' <;> first | exact hoperand' | rfl
      | _ => exact hoperand'
  code := h.code
  toKeepsSyntax := .vacuous rfl rfl rfl rfl

theorem binary (op : BinaryOp) (hl : l.Improves l') (hr : r.Improves r') :
    (Expr.binary op l r).Improves (.binary op l' r') where
  value v hv := by
    obtain ⟨w, hw, hv⟩ := Option.bind_eq_some_iff.1 hv
    refine Option.bind_eq_some_iff.2 ⟨w, hl.value w hw, ?_⟩
    cases op
    case logicalAnd | coalesce =>
      simp only at hv ⊢
      split at hv
      · next hw => rw [if_pos hw, hr.value v hv]
      · next hw => rw [if_neg hw, hv]
    case logicalOr =>
      simp only at hv ⊢
      split at hv
      · next hw => rw [if_pos hw, hv]
      · next hw => rw [if_neg hw, hr.value v hv]
    all_goals
      obtain ⟨u, hu, hv⟩ := Option.bind_eq_some_iff.1 hv
      exact Option.bind_eq_some_iff.2 ⟨u, hr.value u hu, hv⟩
  effects he := by
    obtain ⟨he, her⟩ := Bool.or_eq_false_iff.1 he
    obtain ⟨hop, hel⟩ := Bool.or_eq_false_iff.1 he
    exact Bool.or_eq_false_iff.2 ⟨Bool.or_eq_false_iff.2 ⟨hop, hl.effects hel⟩, hr.effects her⟩
  code hc := by
    obtain ⟨hcl, hcr⟩ := Bool.or_eq_false_iff.1 hc
    exact Bool.or_eq_false_iff.2 ⟨hl.code hcl, hr.code hcr⟩
  toKeepsSyntax := .vacuous rfl rfl rfl rfl

theorem member (name : Ident) (optional : Bool) (h : e.Improves e') :
    (Expr.member e name optional).Improves (.member e' name optional) where
  value _ := h.textLength? fun _ hs => hs
  effects he := by
    obtain ⟨ht, he⟩ := Bool.or_eq_false_iff.1 he
    exact Bool.or_eq_false_iff.2 ⟨h.trap ht, h.effects he⟩
  code hc := by
    obtain ⟨hc, -⟩ := Bool.or_eq_false_iff.1 hc
    exact Bool.or_eq_false_iff.2 ⟨h.code hc, rfl⟩
  word := nofun
  trap := nofun
  callee := h.isPureMethod
  type := nofun

theorem index (optional : Bool) (hl : l.Improves l') (hr : r.Improves r') :
    (Expr.index l r optional).Improves (.index l' r' optional) where
  value _ := hl.textLength? fun _ => hr.string?
  effects he := by
    obtain ⟨he, her⟩ := Bool.or_eq_false_iff.1 he
    obtain ⟨ht, hel⟩ := Bool.or_eq_false_iff.1 he
    exact Bool.or_eq_false_iff.2 ⟨Bool.or_eq_false_iff.2 ⟨hl.trap ht, hl.effects hel⟩, hr.effects her⟩
  code hc := by
    obtain ⟨hcl, hcr⟩ := Bool.or_eq_false_iff.1 hc
    exact Bool.or_eq_false_iff.2 ⟨hl.code hcl, hr.code hcr⟩
  word := nofun
  trap := nofun
  callee hc := by
    have hc : l.isPureMethod r.string? = true := hc
    show l'.isPureMethod r'.string? = true
    have hm := hl.isPureMethod hc
    cases hs : r.string? with
    | some s => rw [hr.string? hs, ← hs, hm]
    | none =>
      rw [hs] at hc
      unfold Expr.isPureMethod at hc
      split at hc
      · cases hc
      · rw [Option.any_none, Bool.and_false] at hc
        cases hc
  type := nofun

theorem call (optional : Bool) (h : e.Improves e') (hs : List.Forall₂ Improves es es') :
    (Expr.call e es optional).Improves (.call e' es' optional) where
  value := nofun
  effects he := by
    obtain ⟨hc, he⟩ := Bool.or_eq_false_iff.1 he
    rw [Bool.not_eq_false'] at hc
    refine Bool.or_eq_false_iff.2 ⟨?_, anyEffects hs he⟩
    rw [h.callee hc]
    rfl
  code hc := by
    obtain ⟨hc, hcs⟩ := Bool.or_eq_false_iff.1 hc
    exact Bool.or_eq_false_iff.2 ⟨h.code hc, foldList_code hs hcs⟩
  toKeepsSyntax := .vacuous rfl rfl rfl rfl

/-! ### Conditional expressions -/

theorem place_value? (role : OperandRole) (e : Expr) : (role.place e).value? = e.value? := by
  unfold OperandRole.place
  split <;> rfl

theorem place_effects (role : OperandRole) (e : Expr) : (role.place e).mayHaveEffects = e.mayHaveEffects := by
  unfold OperandRole.place
  split
  · exact Bool.or_false _
  · rfl

theorem place_code (role : OperandRole) (e : Expr) : (role.place e).hasCode = e.hasCode := by
  unfold OperandRole.place
  split
  · exact Bool.or_false _
  · rfl

/-- If the test has a value, then the test that stands for it is known, and the branch is the right one. -/
theorem choose (role : OperandRole) {test test' yes yes' no no' : Expr} (ht : test.Improves test')
    (hy : yes.Improves yes') (hn : no.Improves no') :
    (Expr.cond test yes no).Improves (role.choose test' yes' no') where
  value v hv := by
    obtain ⟨t, htest, hv⟩ := Option.bind_eq_some_iff.1 hv
    have htruthy : test'.truthy? = some t.toBool := by rw [truthy?, ht.value t htest]
    simp only [OperandRole.choose, htruthy, place_value?]
    split at hv
    · next hb => rw [if_pos hb, hy.value v hv]
    · next hb => rw [if_neg hb, hn.value v hv]
  effects he := by
    obtain ⟨he, hen⟩ := Bool.or_eq_false_iff.1 he
    obtain ⟨het, hey⟩ := Bool.or_eq_false_iff.1 he
    unfold OperandRole.choose
    split
    · exact Bool.or_eq_false_iff.2 ⟨Bool.or_eq_false_iff.2 ⟨ht.effects het, hy.effects hey⟩, hn.effects hen⟩
    · next b _ =>
      rw [place_effects]
      cases b
      · exact hn.effects hen
      · exact hy.effects hey
  code hc := by
    obtain ⟨hct, hc⟩ := Bool.or_eq_false_iff.1 hc
    obtain ⟨hcy, hcn⟩ := Bool.or_eq_false_iff.1 hc
    unfold OperandRole.choose
    split
    · exact Bool.or_eq_false_iff.2 ⟨ht.code hct, Bool.or_eq_false_iff.2 ⟨hy.code hcy, hn.code hcn⟩⟩
    · next b _ =>
      rw [place_code]
      cases b
      · exact hn.code hcn
      · exact hy.code hcy
  toKeepsSyntax := .vacuous rfl rfl rfl rfl

end Improves

end Expr

/-! ### Folded expressions stand for what they come from -/

mutual

theorem Expr.foldTests_improves (role : OperandRole) (e : Expr) : e.Improves (e.foldTests role) := by
  match e with
  | .hole | .ident _ | .this | .super | .null | .bool _ | .number .. | .string _ | .regExp .. | .func _ | .arrow ..
  | .arrowBlock .. | .cls _ => exact .refl _
  | .template tag chunks es =>
    exact .template chunks (Expr.foldTestsOpt_improves _ tag) (Expr.foldTestsList_improves es)
  | .array es => exact .array (Expr.foldTestsList_improves es)
  | .seq es => exact .seq (Expr.foldTestsList_improves es)
  | .object ps => exact .object (Property.foldTestsList_improves ps)
  | .unary op e => exact .unary op (Expr.foldTests_improves _ e)
  | .binary op l r => exact .binary op (Expr.foldTests_improves _ l) (Expr.foldTests_improves _ r)
  | .cond test yes no =>
    exact .choose role (Expr.foldTests_improves _ test) (Expr.foldTests_improves _ yes) (Expr.foldTests_improves _ no)
  | .call callee args optional =>
    exact .call optional (Expr.foldTests_improves _ callee) (Expr.foldTestsList_improves args)
  | .member object name optional => exact .member name optional (Expr.foldTests_improves _ object)
  | .index object key optional =>
    exact .index optional (Expr.foldTests_improves _ object) (Expr.foldTests_improves _ key)
  | .spread e | .update _ e _ | .await e =>
    exact .of_effects rfl rfl rfl rfl rfl rfl (Expr.foldTests_improves .value e).code
  | .assign _ l r =>
    refine .of_effects rfl rfl rfl rfl rfl rfl fun hc => ?_
    obtain ⟨hl, hr⟩ := Bool.or_eq_false_iff.1 hc
    exact Bool.or_eq_false_iff.2 ⟨(Expr.foldTests_improves _ l).code hl, (Expr.foldTests_improves _ r).code hr⟩
  | .new callee args =>
    refine .of_effects rfl rfl rfl rfl rfl rfl fun hc => ?_
    obtain ⟨hl, hr⟩ := Bool.or_eq_false_iff.1 hc
    exact Bool.or_eq_false_iff.2 ⟨(Expr.foldTests_improves _ callee).code hl,
      Expr.Improves.foldList_code (Expr.foldTestsList_improves args) hr⟩
  | .yield arg _ =>
    refine .of_effects rfl rfl rfl rfl rfl rfl fun hc => ?_
    cases arg with
    | none => exact hc
    | some arg => exact (Expr.foldTests_improves _ arg).code hc

theorem Expr.foldTestsOpt_improves (role : OperandRole) (e : Option Expr) :
    Option.Rel Expr.Improves e (Expr.foldTestsOpt role e) := by
  match e with
  | none => exact .none
  | some e => exact .some (Expr.foldTests_improves role e)

theorem Expr.foldTestsList_improves (es : List Expr) : List.Forall₂ Expr.Improves es (Expr.foldTestsList es) := by
  match es with
  | [] => exact .nil
  | e :: es => exact .cons (Expr.foldTests_improves _ e) (Expr.foldTestsList_improves es)

theorem Property.foldTests_improves (p : Property) : p.Improves p.foldTests := by
  match p with
  | .short _ none => exact ⟨fun h => h, fun h => h, fun h => h⟩
  | .short _ (some init) => exact ⟨fun h => h, (Expr.foldTests_improves _ init).code, fun h => h⟩
  | .keyed key _ value false =>
    have hv := Expr.foldTests_improves .value value
    exact ⟨hv.effects, hv.code, fun h => h⟩
  | .keyed key _ value true =>
    have hk := Expr.foldTests_improves .value key
    have hv := Expr.foldTests_improves .value value
    refine ⟨fun h => ?_, fun h => ?_, nofun⟩
    · obtain ⟨hek, hev⟩ := Bool.or_eq_false_iff.1 h
      exact Bool.or_eq_false_iff.2 ⟨hk.effects hek, hv.effects hev⟩
    · obtain ⟨hck, hcv⟩ := Bool.or_eq_false_iff.1 h
      exact Bool.or_eq_false_iff.2 ⟨hk.code hck, hv.code hcv⟩
  | .spread e => exact ⟨nofun, (Expr.foldTests_improves _ e).code, nofun⟩

theorem Property.foldTestsList_improves (ps : List Property) :
    List.Forall₂ Property.Improves ps (Property.foldTestsList ps) := by
  match ps with
  | [] => exact .nil
  | p :: ps => exact .cons (Property.foldTests_improves p) (Property.foldTestsList_improves ps)

end

/-! ### A pass that inlines nothing -/

namespace Elimination

variable {α β γ : Type} {m : Pass α} {n : Pass β} {a : α} {b : β}

/-- Names are inlined for good. -/
def KeepsInlines (m : Pass α) : Prop := ∀ s, s.inlines ≤ (m s).2.inlines

/-- If it inlines nothing, the step ends with `a`. -/
structure EndsWith (m : Pass α) (a : α) : Prop where
  keeps : KeepsInlines m
  result : ∀ s, (m s).2.inlines = s.inlines → (m s).1 = a

theorem KeepsInlines.bind {f : α → Pass β} (h : KeepsInlines m) (hf : ∀ x, KeepsInlines (f x)) : KeepsInlines (m >>= f) :=
  fun s => Nat.le_trans (h s) (hf _ _)

namespace EndsWith

theorem pure (a : α) : EndsWith (pure a : Pass α) a := ⟨fun _ => Nat.le_refl _, fun _ _ => rfl⟩

/-- Both steps inline nothing if they do not together. -/
theorem bind {f : α → Pass β} (h : EndsWith m a) (hf : ∀ x, KeepsInlines (f x)) (hb : EndsWith (f a) b) :
    EndsWith (m >>= f) b where
  keeps := h.keeps.bind hf
  result s hs := by
    rw [run_bind] at hs ⊢
    have hm : (m s).2.inlines = s.inlines := Nat.le_antisymm (Nat.le_trans (hf _ _) (Nat.le_of_eq hs)) (h.keeps s)
    rw [h.result s hm] at hs ⊢
    exact hb.result _ (hs.trans hm.symm)

theorem map (h : EndsWith m a) (f : α → β) : EndsWith (do return f (← m)) (f a) :=
  h.bind (fun _ => (pure _).keeps) (pure _)

theorem map₂ (h : EndsWith m a) (h' : EndsWith n b) (f : α → β → γ) :
    EndsWith (do let x ← m; return f x (← n)) (f a b) :=
  h.bind (fun x => (h'.map (f x)).keeps) (h'.map (f a))

theorem inline (id : Ident) : EndsWith (inline id) none := by
  have hinline (s : State) : (Elimination.inline id s).1 = none ∧ (Elimination.inline id s).2.inlines = s.inlines ∨
      (Elimination.inline id s).2.inlines = s.inlines + 1 := by
    obtain ⟨c, -, h | ⟨i, b, value, -, h⟩⟩ := State.inline_cases id s
    · exact .inl (h ▸ ⟨rfl, rfl⟩)
    · rw [h]
      exact .inr (List.countP_cons_of_pos rfl)
  refine ⟨fun s => ?_, fun s hs => ?_⟩
  · rcases hinline s with ⟨-, h⟩ | h
    · exact Nat.le_of_eq h.symm
    · exact h ▸ Nat.le_succ _
  · rcases hinline s with ⟨h, -⟩ | h
    · exact h
    · exact absurd (h.symm.trans hs) (Nat.succ_ne_self _)

end EndsWith

theorem foldConditional_keepsInlines (role : OperandRole) (test yes no : Expr) :
    KeepsInlines (foldConditional role test yes no) := by
  intro s
  rcases foldConditional_cases role test yes no s with h | ⟨_, _, -, -, h, -⟩
  · rw [h]
  · exact Nat.le_of_eq h.inlines.symm

/-- Nothing is renewed where there are no functions and classes. -/
theorem EndsWith.foldConditional (role : OperandRole) {test yes no : Expr} (ht : test.hasCode = false)
    (hy : yes.hasCode = false) (hn : no.hasCode = false) :
    EndsWith (foldConditional role test yes no) (role.choose test yes no) where
  keeps := foldConditional_keepsInlines role test yes no
  result s _ := by
    simp only [Elimination.foldConditional, run_bind, run_get, Expr.renew_codeless s ht, Expr.renew_codeless s hy,
      Expr.renew_codeless s hn, OperandRole.choose]
    cases test.truthy? <;> rfl

end Elimination

mutual

theorem Expr.eliminate_endsWith (role : OperandRole) (e : Expr) (he : e.hasCode = false) :
    EndsWith (e.eliminate role) (e.foldTests role) := by
  match e with
  | .hole | .this | .super | .null | .bool _ | .number .. | .string _ | .regExp .. => exact .pure _
  | .ident id => exact (EndsWith.inline id).map (Option.getD · (.ident id))
  | .template tag chunks es =>
    obtain ⟨ht, hes⟩ := Bool.or_eq_false_iff.1 he
    exact (Expr.eliminateOpt_endsWith _ tag ht).map₂ (Expr.eliminateList_endsWith es hes) (Expr.template · chunks ·)
  | .array es => exact (Expr.eliminateList_endsWith es he).map Expr.array
  | .seq es => exact (Expr.eliminateList_endsWith es he).map Expr.seq
  | .object ps => exact (Property.eliminateList_endsWith ps he).map Expr.object
  | .spread e => exact (Expr.eliminate_endsWith _ e he).map Expr.spread
  | .unary op e =>
    rw [Expr.eliminate]
    split
    · next hop =>
      cases e with
      | ident id => exact .pure _
      | _ => simp only [Expr.isIdent, Bool.and_false, Bool.false_eq_true] at hop
    · exact (Expr.eliminate_endsWith _ e he).map (Expr.unary op)
  | .update op e post => exact (Expr.eliminate_endsWith _ e he).map (Expr.update op · post)
  | .await e => exact (Expr.eliminate_endsWith _ e he).map Expr.await
  | .binary op l r =>
    obtain ⟨hl, hr⟩ := Bool.or_eq_false_iff.1 he
    exact (Expr.eliminate_endsWith _ l hl).map₂ (Expr.eliminate_endsWith _ r hr) (Expr.binary op)
  | .assign op l r =>
    obtain ⟨hl, hr⟩ := Bool.or_eq_false_iff.1 he
    exact (Expr.eliminate_endsWith _ l hl).map₂ (Expr.eliminate_endsWith _ r hr) (Expr.assign op)
  | .cond test yes no =>
    obtain ⟨ht, hb⟩ := Bool.or_eq_false_iff.1 he
    obtain ⟨hy, hn⟩ := Bool.or_eq_false_iff.1 hb
    have htest := Expr.eliminate_endsWith .value test ht
    have hyes := Expr.eliminate_endsWith .value yes hy
    have hno := Expr.eliminate_endsWith .value no hn
    have hkeeps (t y : Expr) : KeepsInlines (no.eliminate .value >>= foldConditional role t y) :=
      hno.keeps.bind (foldConditional_keepsInlines role t y)
    refine htest.bind (fun t => hyes.keeps.bind (hkeeps t)) (hyes.bind (hkeeps _) (hno.bind ?_ ?_))
    · exact foldConditional_keepsInlines role _ _
    · exact .foldConditional role ((Expr.foldTests_improves _ test).code ht)
        ((Expr.foldTests_improves _ yes).code hy) ((Expr.foldTests_improves _ no).code hn)
  | .call callee args optional =>
    obtain ⟨hc, ha⟩ := Bool.or_eq_false_iff.1 he
    exact (Expr.eliminate_endsWith _ callee hc).map₂ (Expr.eliminateList_endsWith args ha) (Expr.call · · optional)
  | .new callee args =>
    obtain ⟨hc, ha⟩ := Bool.or_eq_false_iff.1 he
    exact (Expr.eliminate_endsWith _ callee hc).map₂ (Expr.eliminateList_endsWith args ha) Expr.new
  | .member object name optional =>
    obtain ⟨ho, -⟩ := Bool.or_eq_false_iff.1 he
    exact (Expr.eliminate_endsWith _ object ho).map (Expr.member · name optional)
  | .index object key optional =>
    obtain ⟨ho, hk⟩ := Bool.or_eq_false_iff.1 he
    exact (Expr.eliminate_endsWith _ object ho).map₂ (Expr.eliminate_endsWith _ key hk) (Expr.index · · optional)
  | .yield arg delegate => exact (Expr.eliminateOpt_endsWith _ arg he).map (Expr.yield · delegate)
  | .func _ | .arrow .. | .arrowBlock .. | .cls _ => cases he

theorem Expr.eliminateOpt_endsWith (role : OperandRole) (e : Option Expr) (he : Expr.foldOpt .code e = false) :
    EndsWith (Expr.eliminateOpt role e) (Expr.foldTestsOpt role e) := by
  match e with
  | none => exact .pure _
  | some e => exact (Expr.eliminate_endsWith role e he).map some

theorem Expr.eliminateList_endsWith (es : List Expr) (hes : Expr.foldList .code es = false) :
    EndsWith (Expr.eliminateList es) (Expr.foldTestsList es) := by
  match es with
  | [] => exact .pure _
  | e :: es =>
    obtain ⟨he, hes⟩ := Bool.or_eq_false_iff.1 hes
    exact (Expr.eliminate_endsWith _ e he).map₂ (Expr.eliminateList_endsWith es hes) List.cons

theorem Property.eliminate_endsWith (p : Property) (hp : p.fold .code = false) : EndsWith p.eliminate p.foldTests := by
  match p with
  | .short id none =>
    refine (EndsWith.inline id).bind (fun v => ?_) (.pure _)
    cases v <;> exact (EndsWith.pure _).keeps
  | .short id (some init) => exact (Expr.eliminate_endsWith _ init hp).map fun init => Property.short id (some init)
  | .keyed key kind value false =>
    exact (Expr.eliminate_endsWith _ value hp).map (Property.keyed key kind · false)
  | .keyed key kind value true =>
    obtain ⟨hk, hv⟩ := Bool.or_eq_false_iff.1 hp
    exact (Expr.eliminate_endsWith _ key hk).map₂ (Expr.eliminate_endsWith _ value hv) (Property.keyed · kind · true)
  | .spread e => exact (Expr.eliminate_endsWith _ e hp).map Property.spread

theorem Property.eliminateList_endsWith (ps : List Property) (hps : Property.foldList .code ps = false) :
    EndsWith (Property.eliminateList ps) (Property.foldTestsList ps) := by
  match ps with
  | [] => exact .pure _
  | p :: ps =>
    obtain ⟨hp, hps⟩ := Bool.or_eq_false_iff.1 hps
    exact (Property.eliminate_endsWith p hp).map₂ (Property.eliminateList_endsWith ps hps) List.cons

end

/-- A pass that inlines nothing of an expression without functions and classes keeps its value, and gives it no
effects. -/
theorem Expr.eliminate_keeps_value {e : Expr} (he : e.hasCode = false) (role : OperandRole) (s : State)
    (hs : (e.eliminate role s).2.inlines = s.inlines) :
    (∀ v, e.value? = some v → (e.eliminate role s).1.value? = some v) ∧
      (e.mayHaveEffects = false → (e.eliminate role s).1.mayHaveEffects = false) := by
  rw [(e.eliminate_endsWith role he).result s hs]
  have himproves := e.foldTests_improves role
  exact ⟨himproves.value, himproves.effects⟩

/-- `({ x: true ? "a" : null }, typeof ((null ? true : false) ? Math : NaN))` -/
def sampleTernary : Expr :=
  .seq [.object [.keyed (.ident { name := "x" }) .value (.cond (.bool true) (.string { value := "a" }) .null) false],
    .unary .typeof (.cond (.cond .null (.bool true) (.bool false)) (.ident { name := "Math" })
      (.ident { name := "NaN" }))]

/-- It becomes `({ x: "a" }, typeof (0, NaN))`. -/
theorem Expr.eliminate_keeps_value_sample :
    sampleTernary.hasCode = false ∧ (sampleTernary.eliminate .value default).2.inlines = (default : State).inlines ∧
      (sampleTernary.eliminate .value default).2.changes.length = 3 ∧
      sampleTernary.value? = some (.string "number") ∧ sampleTernary.mayHaveEffects = false ∧
      (sampleTernary.eliminate .value default).1.value? = some (.string "number") ∧
      (sampleTernary.eliminate .value default).1.mayHaveEffects = false := by
  have hinlines : (sampleTernary.eliminate .value default).2.inlines = (default : State).inlines := by decide
  have heffects : sampleTernary.mayHaveEffects = false := by decide
  have hkept := Expr.eliminate_keeps_value (e := sampleTernary) (by decide) .value default hinlines
  exact ⟨by decide, hinlines, by decide, rfl, heffects, hkept.1 _ rfl, hkept.2 heffects⟩

end Deadwood
