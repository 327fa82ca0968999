import Deadwood.Elimination.Run
import Deadwood.Proofs.Numbering
import Deadwood.Proofs.Removal
import Deadwood.Proofs.Rules

/-!
# Plain syntax

Plain statements are made of expressions, blocks, tests and jumps, and declare nothing.  Of their
expressions a pass changes nothing but names that it has a value for, and a program of plain statements
has no such names.
-/

namespace Deadwood

open Elimination

/-! ### Plain statements -/

mutual

/-- Whether an expression has no conditional expressions and no literals of functions and classes. -/
def Expr.isPlain : Expr → Bool
  | .func _ | .arrow .. | .arrowBlock .. | .cls _ | .cond .. => false
  | .hole | .ident _ | .this | .super | .null | .bool _ | .number .. | .string _ | .regExp .. => true
  | .template tag _ es => Expr.optPlain tag && Expr.allPlain es
  | .array es | .seq es => Expr.allPlain es
  | .object ps => Property.allPlain ps
  | .spread e | .unary _ e | .update _ e _ | .await e => e.isPlain
  | .binary _ l r | .assign _ l r => l.isPlain && r.isPlain
  | .call callee args _ | .new callee args => callee.isPlain && Expr.allPlain args
  | .member object _ _ => object.isPlain
  | .index object key _ => object.isPlain && key.isPlain
  | .yield arg _ => Expr.optPlain arg

def Expr.optPlain : Option Expr → Bool
  | none => true
  | some e => e.isPlain

def Expr.allPlain : List Expr → Bool
  | [] => true
  | e :: es => e.isPlain && Expr.allPlain es

def Property.isPlain : Property → Bool
  | .short _ init => Expr.optPlain init
  | .keyed key _ value computed => (!computed || key.isPlain) && value.isPlain
  | .spread e => e.isPlain

def Property.allPlain : List Property → Bool
  | [] => true
  | p :: ps => p.isPlain && Property.allPlain ps

end

mutual

/-- Whether a statement is made of plain expressions, blocks, tests and jumps. -/
def Stmt.isPlain : Stmt → Bool
  | .empty | .brk _ | .cont _ => true
  | .expr e | .throw e => e.isPlain
  | .ret arg => Expr.optPlain arg
  | .block ts => Stmt.allPlain ts
  | .cond test yes no => test.isPlain && yes.isPlain && Stmt.optPlain no
  | _ => false

def Stmt.optPlain : Option Stmt → Bool
  | none => true
  | some t => t.isPlain

def Stmt.allPlain : List Stmt → Bool
  | [] => true
  | t :: ts => t.isPlain && Stmt.allPlain ts

end

/-- Collects whether there is a literal of a function or class. -/
def Fold.code : Fold Bool where
  empty := false
  append := (· || ·)
  ident _ _ := false
  expr e b :=
    match e with
    | .func _ | .arrow .. | .arrowBlock .. | .cls _ => true
    | _ => b

/-- Whether an expression holds a literal of a function or class. -/
def Expr.hasCode (e : Expr) : Bool := e.fold .code

mutual

theorem Expr.hasCode_of_isPlain (e : Expr) (he : e.isPlain = true) : e.hasCode = false := by
  match e with
  | .hole | .ident _ | .this | .super | .null | .bool _ | .number .. | .string _ | .regExp .. => rfl
  | .template tag _ es =>
    obtain ⟨ht, hes⟩ := Bool.and_eq_true_iff.1 he
    exact Bool.or_eq_false_iff.2 ⟨Expr.foldOpt_code_of_optPlain tag ht, Expr.foldList_code_of_allPlain es hes⟩
  | .array es | .seq es => exact Expr.foldList_code_of_allPlain es he
  | .object ps => exact Property.foldList_code_of_allPlain ps he
  | .spread e | .unary _ e | .update _ e _ | .await e => exact Expr.hasCode_of_isPlain e he
  | .binary _ l r | .assign _ l r =>
    obtain ⟨hl, hr⟩ := Bool.and_eq_true_iff.1 he
    exact Bool.or_eq_false_iff.2 ⟨Expr.hasCode_of_isPlain l hl, Expr.hasCode_of_isPlain r hr⟩
  | .call callee args _ | .new callee args =>
    obtain ⟨hc, ha⟩ := Bool.and_eq_true_iff.1 he
    exact Bool.or_eq_false_iff.2 ⟨Expr.hasCode_of_isPlain callee hc, Expr.foldList_code_of_allPlain args ha⟩
  | .member object _ _ => exact Bool.or_eq_false_iff.2 ⟨Expr.hasCode_of_isPlain object he, rfl⟩
  | .index object key _ =>
    obtain ⟨ho, hk⟩ := Bool.and_eq_true_iff.1 he
    exact Bool.or_eq_false_iff.2 ⟨Expr.hasCode_of_isPlain object ho, Expr.hasCode_of_isPlain key hk⟩
  | .yield arg _ => exact Expr.foldOpt_code_of_optPlain arg he

theorem Expr.foldOpt_code_of_optPlain (e : Option Expr) (he : Expr.optPlain e = true) : Expr.foldOpt .code e = false := by
  match e with
  | none => rfl
  | some e => exact Expr.hasCode_of_isPlain e he

theorem Expr.foldList_code_of_allPlain (es : List Expr) (hes : Expr.allPlain es = true) :
    Expr.foldList .code es = false := by
  match es with
  | [] => rfl
  | e :: es =>
    obtain ⟨he, hes⟩ := Bool.and_eq_true_iff.1 hes
    exact Bool.or_eq_false_iff.2 ⟨Expr.hasCode_of_isPlain e he, Expr.foldList_code_of_allPlain es hes⟩

theorem Property.fold_code_of_isPlain (p : Property) (hp : p.isPlain = true) : p.fold .code = false := by
  match p with
  | .short _ init => exact Expr.foldOpt_code_of_optPlain init hp
  | .keyed key _ value computed =>
    obtain ⟨hk, hv⟩ := Bool.and_eq_true_iff.1 hp
    refine Bool.or_eq_false_iff.2 ⟨?_, Expr.hasCode_of_isPlain value hv⟩
    cases computed with
    | false => rfl
    | true => exact Expr.hasCode_of_isPlain key hk
  | .spread e => exact Expr.hasCode_of_isPlain e hp

theorem Property.foldList_code_of_allPlain (ps : List Property) (hps : Property.allPlain ps = true) :
    Property.foldList .code ps = false := by
  match ps with
  | [] => rfl
  | p :: ps =>
    obtain ⟨hp, hps⟩ := Bool.and_eq_true_iff.1 hps
    exact Bool.or_eq_false_iff.2 ⟨Property.fold_code_of_isPlain p hp, Property.foldList_code_of_allPlain ps hps⟩

end

/-! ### Names that stay -/

/-- The fold that collects what is read or assigned to. -/
abbrev Fold.references : Fold (List Ident) := Fold.idents (· = .reference)

/-- No value takes the place of the name: it is global, or declared in a way that rules this out. -/
def Elimination.State.Keeps (s : State) (id : Ident) : Prop :=
  ∀ i b, s.info.bindingOf? id = some i → s.info.binding? i = some b →
    b.isConstant = false ∨ b.isExported = true ∨ b.isForward = true ∨ b.kind.isFixed = true

namespace Elimination.State

variable {s t : State}

theorem Keeps.isInlinable {id : Ident} (h : s.Keeps id) {i : BindingId} {b : Binding}
    (hi : s.info.bindingOf? id = some i) (hb : s.info.binding? i = some b) :
    s.isInlinable i b = false := by
  rcases h i b hi hb with h | h | h | h <;> simp [State.isInlinable, h]

theorem Keeps.inline {id : Ident} (h : s.Keeps id) : inline id s = (none, s) := by
  have hc : s.candidate? id = none := by
    refine Option.eq_none_iff_forall_ne_some.2 fun ⟨i, b, value⟩ hr => ?_
    obtain ⟨-, hi, hb, hinl, -⟩ := candidate?_eq_some_iff.1 hr
    rw [h.isInlinable hi hb] at hinl
    cases hinl
  have hn : s.inlined? id = none := by rw [inlined?, hc]; rfl
  -- Nothing is asked where there is no candidate.
  have ha : ask none s = ((), s) := congrArg (fun c => ((), s.noting c)) (Bool.or_false s.circled)
  simp only [Elimination.inline, run_bind, run_get, hc, hn, Option.map_none, ha, run_pure]

theorem Settles.keeps (h : s.Settles t) {id : Ident} (hid : s.Keeps id) : t.Keeps id := by
  intro i c hi hc
  obtain ⟨b, n, hb, -, rfl⟩ := h.bindings hc
  refine hid i b ?_ hb
  rw [← hi, Info.bindingOf?, Info.bindingOf?, h.refs]

end Elimination.State

/-- All names of a list of identifiers stay. -/
def Elimination.State.KeepsAll (s : State) (ids : List Ident) : Prop := ∀ id ∈ ids, s.Keeps id

namespace Elimination.State.KeepsAll

variable {s t : State} {ids ids' : List Ident}

theorem left (h : s.KeepsAll (ids ++ ids')) : s.KeepsAll ids := (List.forall_mem_append.1 h).1

theorem right (h : s.KeepsAll (ids ++ ids')) : s.KeepsAll ids' := (List.forall_mem_append.1 h).2

theorem settles (h : s.KeepsAll ids) (hs : s.Settles t) : t.KeepsAll ids :=
  fun id hid => hs.keeps (h id hid)

end Elimination.State.KeepsAll

/-! ### Plain expressions stay as they are -/

mutual

theorem Expr.eliminate_plain (role : OperandRole) (e : Expr) {s : State} (he : e.isPlain = true)
    (hs : s.KeepsAll (e.fold .references)) : e.eliminate role s = (e, s) := by
  match e with
  | .hole | .this | .super | .null | .bool _ | .number .. | .string _ | .regExp .. => rfl
  | .ident id =>
    have hi := State.Keeps.inline (hs id (List.mem_singleton_self id))
    simp only [Expr.eliminate, run_bind, hi, Option.getD_none, run_pure]
  | .template tag chunks es =>
    rw [Expr.isPlain, Bool.and_eq_true] at he
    have ht := Expr.eliminateOpt_plain .callee tag he.1 hs.left
    have hes := Expr.eliminateList_plain es he.2 hs.right
    simp only [Expr.eliminate, run_bind, ht, hes, run_pure]
  | .array es | .seq es =>
    have hes := Expr.eliminateList_plain es he hs
    simp only [Expr.eliminate, run_bind, hes, run_pure]
  | .object ps =>
    have hps := Property.eliminateList_plain ps he hs
    simp only [Expr.eliminate, run_bind, hps, run_pure]
  | .spread e | .update _ e _ | .await e =>
    have he := Expr.eliminate_plain .value e he hs
    simp only [Expr.eliminate, run_bind, he, run_pure]
  | .unary op e =>
    have he := Expr.eliminate_plain op.operandRole e he hs
    rw [Expr.eliminate]
    split
    · rfl
    · simp only [run_bind, he, run_pure]
  | .binary _ l r | .assign _ l r =>
    rw [Expr.isPlain, Bool.and_eq_true] at he
    have hl := Expr.eliminate_plain .value l he.1 hs.left
    have hr := Expr.eliminate_plain .value r he.2 hs.right
    simp only [Expr.eliminate, run_bind, hl, hr, run_pure]
  | .call callee args _ =>
    rw [Expr.isPlain, Bool.and_eq_true] at he
    have hc := Expr.eliminate_plain .callee callee he.1 hs.left
    have has := Expr.eliminateList_plain args he.2 hs.right
    simp only [Expr.eliminate, run_bind, hc, has, run_pure]
  | .new callee args =>
    rw [Expr.isPlain, Bool.and_eq_true] at he
    have hc := Expr.eliminate_plain .value callee he.1 hs.left
    have has := Expr.eliminateList_plain args he.2 hs.right
    simp only [Expr.eliminate, run_bind, hc, has, run_pure]
  | .member object name _ =>
    have ho := Expr.eliminate_plain .value object he hs.left
    simp only [Expr.eliminate, run_bind, ho, run_pure]
  | .index object key _ =>
    rw [Expr.isPlain, Bool.and_eq_true] at he
    have ho := Expr.eliminate_plain .value object he.1 hs.left
    have hk := Expr.eliminate_plain .value key he.2 hs.right
    simp only [Expr.eliminate, run_bind, ho, hk, run_pure]
  | .yield arg _ =>
    have ha := Expr.eliminateOpt_plain .value arg he hs
    simp only [Expr.eliminate, run_bind, ha, run_pure]

theorem Expr.eliminateOpt_plain (role : OperandRole) (e : Option Expr) {s : State}
    (he : Expr.optPlain e = true) (hs : s.KeepsAll (Expr.foldOpt .references e)) :
    Expr.eliminateOpt role e s = (e, s) := by
  match e with
  | none => rfl
  | some e =>
    have he := Expr.eliminate_plain role e he hs
    simp only [Expr.eliminateOpt, run_bind, he, run_pure]

theorem Expr.eliminateList_plain (es : List Expr) {s : State} (hes : Expr.allPlain es = true)
    (hs : s.KeepsAll (Expr.foldList .references es)) : Expr.eliminateList es s = (es, s) := by
  match es with
  | [] => rfl
  | e :: es =>
    rw [Expr.allPlain, Bool.and_eq_true] at hes
    have he := Expr.eliminate_plain .value e hes.1 hs.left
    have hes := Expr.eliminateList_plain es hes.2 hs.right
    simp only [Expr.eliminateList, run_bind, he, hes, run_pure]

theorem Property.eliminate_plain (p : Property) {s : State} (hp : p.isPlain = true)
    (hs : s.KeepsAll (p.fold .references)) : p.eliminate s = (p, s) := by
  match p with
  | .short id none =>
    have hi := State.Keeps.inline (hs id (List.mem_singleton_self id))
    simp only [Property.eliminate, run_bind, hi, run_pure]
  | .short id (some init) =>
    have hi := Expr.eliminate_plain .value init hp hs.right
    simp only [Property.eliminate, run_bind, hi, run_pure]
  | .keyed key kind value computed =>
    rw [Property.isPlain, Bool.and_eq_true] at hp
    have hv := Expr.eliminate_plain .value value hp.2 hs.right
    cases computed with
    | false => simp only [Property.eliminate, run_bind, hv, run_pure, Bool.false_eq_true, if_false]
    | true =>
      have hk := Expr.eliminate_plain .value key hp.1 hs.left
      simp only [Property.eliminate, run_bind, hv, hk, run_pure, if_true]
  | .spread e =>
    have he := Expr.eliminate_plain .value e hp hs
    simp only [Property.eliminate, run_bind, he, run_pure]

theorem Property.eliminateList_plain (ps : List Property) {s : State}
    (hps : Property.allPlain ps = true) (hs : s.KeepsAll (Property.foldList .references ps)) :
    Property.eliminateList ps s = (ps, s) := by
  match ps with
  | [] => rfl
  | p :: ps =>
    rw [Property.allPlain, Bool.and_eq_true] at hps
    have hp := Property.eliminate_plain p hps.1 hs.left
    have hps := Property.eliminateList_plain ps hps.2 hs.right
    simp only [Property.eliminateList, run_bind, hp, hps, run_pure]

end

/-! ### Nothing is renewed in plain syntax -/

section Renewal

open Removal

variable {r : Removal}

theorem Removal.take_false : (take : Walk Bool) false = (false, false) := rfl

theorem Removal.slot_false (t : Stmt) : slot t false = (t, false) := rfl

theorem Removal.IsUnmarked.ident (hr : r.IsUnmarked) (id : Ident) (m : Bool) : r.ident id m = ((), m) := by
  simp only [Removal.ident, hr.marks id, Bool.false_eq_true, if_false, run_pure]

theorem Removal.IsUnmarked.optIdent (hr : r.IsUnmarked) (id : Option Ident) (m : Bool) :
    r.optIdent id m = ((), m) := by
  cases id with
  | none => rfl
  | some id => exact hr.ident id m

mutual

theorem Expr.remove_codeless (hr : r.IsUnmarked) (e : Expr) (he : e.hasCode = false) :
    e.remove r false = (e, false) := by
  match e with
  | .hole | .this | .super | .null | .bool _ | .number .. | .string _ | .regExp .. => rfl
  | .ident id => simp only [Expr.remove, run_bind, hr.ident, run_pure]
  | .template tag chunks es =>
    obtain ⟨ht, hes⟩ := Bool.or_eq_false_iff.1 he
    simp only [Expr.remove, run_bind, Expr.removeOpt_codeless hr tag ht, Expr.removeList_codeless hr es hes,
      run_pure]
  | .array es | .seq es => simp only [Expr.remove, run_bind, Expr.removeList_codeless hr es he, run_pure]
  | .object ps => simp only [Expr.remove, run_bind, Property.removeList_codeless hr ps he, run_pure]
  | .spread e | .unary _ e | .update _ e _ | .await e =>
    simp only [Expr.remove, run_bind, Expr.remove_codeless hr e he, run_pure]
  | .binary _ x y | .assign _ x y =>
    obtain ⟨hx, hy⟩ := Bool.or_eq_false_iff.1 he
    simp only [Expr.remove, run_bind, Expr.remove_codeless hr x hx, Expr.remove_codeless hr y hy, run_pure]
  | .cond test yes no =>
    obtain ⟨ht, hb⟩ := Bool.or_eq_false_iff.1 he
    obtain ⟨hy, hn⟩ := Bool.or_eq_false_iff.1 hb
    simp only [Expr.remove, run_bind, Expr.remove_codeless hr test ht, Expr.remove_codeless hr yes hy,
      Expr.remove_codeless hr no hn, run_pure]
  | .call callee args _ | .new callee args =>
    obtain ⟨hc, ha⟩ := Bool.or_eq_false_iff.1 he
    simp only [Expr.remove, run_bind, Expr.remove_codeless hr callee hc, Expr.removeList_codeless hr args ha,
      run_pure]
  | .member object name _ =>
    obtain ⟨ho, -⟩ := Bool.or_eq_false_iff.1 he
    simp only [Expr.remove, run_bind, Expr.remove_codeless hr object ho, hr.ident, run_pure]
  | .index object key _ =>
    obtain ⟨ho, hk⟩ := Bool.or_eq_false_iff.1 he
    simp only [Expr.remove, run_bind, Expr.remove_codeless hr object ho, Expr.remove_codeless hr key hk, run_pure]
  | .yield arg _ => simp only [Expr.remove, run_bind, Expr.removeOpt_codeless hr arg he, run_pure]
  | .func _ | .arrow .. | .arrowBlock .. | .cls _ => cases he

theorem Expr.removeOpt_codeless (hr : r.IsUnmarked) (e : Option Expr) (he : Expr.foldOpt .code e = false) :
    Expr.removeOpt r e false = (e, false) := by
  match e with
  | none => rfl
  | some e => simp only [Expr.removeOpt, run_bind, Expr.remove_codeless hr e he, run_pure]

theorem Expr.removeList_codeless (hr : r.IsUnmarked) (es : List Expr) (hes : Expr.foldList .code es = false) :
    Expr.removeList r es false = (es, false) := by
  match es with
  | [] => rfl
  | e :: es =>
    obtain ⟨he, hes⟩ := Bool.or_eq_false_iff.1 hes
    simp only [Expr.removeList, run_bind, Expr.remove_codeless hr e he, take_false,
      Expr.removeList_codeless hr es hes, run_pure, Bool.false_eq_true, if_false]

theorem Property.remove_codeless (hr : r.IsUnmarked) (p : Property) (hp : p.fold .code = false) :
    p.remove r false = (p, false) := by
  match p with
  | .short id init =>
    simp only [Property.remove, run_bind, hr.ident, Expr.removeOpt_codeless hr init hp, run_pure]
  | .keyed key kind value computed =>
    obtain ⟨hk, hv⟩ := Bool.or_eq_false_iff.1 hp
    have hv := Expr.remove_codeless hr value hv
    cases computed with
    | false => simp only [Property.remove, run_bind, hv, run_pure, Bool.false_eq_true, if_false]
    | true => simp only [Property.remove, run_bind, Expr.remove_codeless hr key hk, hv, run_pure, if_true]
  | .spread e => simp only [Property.remove, run_bind, Expr.remove_codeless hr e hp, run_pure]

theorem Property.removeList_codeless (hr : r.IsUnmarked) (ps : List Property)
    (hps : Property.foldList .code ps = false) : Property.removeList r ps false = (ps, false) := by
  match ps with
  | [] => rfl
  | p :: ps =>
    obtain ⟨hp, hps⟩ := Bool.or_eq_false_iff.1 hps
    simp only [Property.removeList, run_bind, Property.remove_codeless hr p hp,
      Property.removeList_codeless hr ps hps, run_pure]

end

theorem Expr.remove_plain (hr : r.IsUnmarked) {e : Expr} (he : e.isPlain = true) : e.remove r false = (e, false) :=
  e.remove_codeless hr (e.hasCode_of_isPlain he)

mutual

theorem Stmt.remove_plain (hr : r.IsUnmarked) (t : Stmt) (ht : t.isPlain = true) :
    t.remove r false = (t, false) := by
  match t with
  | .empty => rfl
  | .brk label | .cont label => simp only [Stmt.remove, run_bind, hr.optIdent, run_pure]
  | .expr e | .throw e => simp only [Stmt.remove, run_bind, Expr.remove_plain hr ht, run_pure]
  | .ret arg =>
    simp only [Stmt.remove, run_bind, Expr.removeOpt_codeless hr arg (Expr.foldOpt_code_of_optPlain arg ht), run_pure]
  | .block ts => simp only [Stmt.remove, run_bind, Stmt.removeList_plain hr ts ht, run_pure]
  | .cond test yes no =>
    rw [Stmt.isPlain, Bool.and_eq_true, Bool.and_eq_true] at ht
    simp only [Stmt.remove, run_bind, Expr.remove_plain hr ht.1.1, Stmt.remove_plain hr yes ht.1.2,
      slot_false, Stmt.removeOpt_plain hr no ht.2, run_pure]

theorem Stmt.removeOpt_plain (hr : r.IsUnmarked) (t : Option Stmt) (ht : Stmt.optPlain t = true) :
    Stmt.removeOpt r t false = (t, false) := by
  match t with
  | none => rfl
  | some t => simp only [Stmt.removeOpt, run_bind, Stmt.remove_plain hr t ht, slot_false, run_pure]

theorem Stmt.removeList_plain (hr : r.IsUnmarked) (ts : List Stmt) (hts : Stmt.allPlain ts = true) :
    Stmt.removeList r ts false = (ts, false) := by
  match ts with
  | [] => rfl
  | t :: ts =>
    rw [Stmt.allPlain, Bool.and_eq_true] at hts
    simp only [Stmt.removeList, run_bind, Stmt.remove_plain hr t hts.1, take_false,
      Stmt.removeList_plain hr ts hts.2, run_pure, Bool.false_eq_true, if_false]

end

theorem Elimination.State.renewal_isUnmarked (s : State) : s.renewal.IsUnmarked :=
  ⟨fun _ => rfl, fun _ => rfl, fun _ => rfl, rfl⟩

theorem Expr.renew_codeless (s : State) {e : Expr} (he : e.hasCode = false) : s.renewExpr e = e := by
  unfold State.renewExpr
  split
  · rfl
  · exact congrArg Prod.fst (e.remove_codeless s.renewal_isUnmarked he)

theorem Stmt.renew_plain (s : State) {t : Stmt} (ht : t.isPlain = true) : s.renewStmt t = t := by
  unfold State.renewStmt
  split
  · rfl
  · exact congrArg Prod.fst (Stmt.remove_plain s.renewal_isUnmarked t ht)

end Renewal

/-! ### Plain programs -/

section Resolution

open ScopeWalk

variable {σ : Type} {v : ScopeVisitor (StateM σ)} {I : σ → Prop}

/-- What a visitor does to the names and scopes of plain syntax keeps a property of its state. -/
structure KeepsPlain (v : ScopeVisitor (StateM σ)) (I : σ → Prop) : Prop where
  refer : ∀ writing id {s}, I s → I (v.refer writing id s).2
  called : ∀ id {s}, I s → I (v.called id s).2
  inScope : ∀ {α : Type} kind opener (act : StateM σ α) {s} (P : α → Prop),
    (∀ {s}, I s → P (act s).1 ∧ I (act s).2) → I s →
    P (v.inScope kind opener act s).1 ∧ I (v.inScope kind opener act s).2

theorem KeepsPlain.callOf (h : KeepsPlain v I) (e : Expr) {s : σ} (hs : I s) : I (v.callOf e s).2 := by
  cases e with
  | ident id => exact h.called id hs
  | _ => exact hs

mutual

theorem Expr.walkScopes_plain (h : KeepsPlain v I) (cx : Context) (e : Expr) (he : e.isPlain = true)
    {s : σ} (hs : I s) : (e.walkScopes v cx s).1.isPlain = true ∧ I (e.walkScopes v cx s).2 := by
  match e with
  | .hole | .this | .super | .null | .bool _ | .number .. | .string _ | .regExp .. => exact ⟨rfl, hs⟩
  | .ident id => exact ⟨rfl, h.refer _ id hs⟩
  | .template tag chunks es =>
    rw [Expr.isPlain, Bool.and_eq_true] at he
    obtain ⟨ht, hs⟩ := Expr.walkScopesOpt_plain h cx tag he.1 hs
    obtain ⟨hes, hs⟩ := Expr.walkScopesList_plain h cx es he.2 hs
    exact ⟨Bool.and_eq_true _ _ ▸ ⟨ht, hes⟩, hs⟩
  | .array es | .seq es => exact Expr.walkScopesList_plain h cx es he hs
  | .object ps => exact Property.walkScopesList_plain h cx ps he hs
  | .spread e | .unary _ e | .await e => exact Expr.walkScopes_plain h cx e he hs
  | .update _ e _ => exact Expr.walkScopes_plain h cx.write e he hs
  | .binary _ l r =>
    rw [Expr.isPlain, Bool.and_eq_true] at he
    obtain ⟨hl, hs⟩ := Expr.walkScopes_plain h cx l he.1 hs
    obtain ⟨hr, hs⟩ := Expr.walkScopes_plain h cx r he.2 hs
    exact ⟨Bool.and_eq_true _ _ ▸ ⟨hl, hr⟩, hs⟩
  | .assign _ l r =>
    rw [Expr.isPlain, Bool.and_eq_true] at he
    obtain ⟨hl, hs⟩ := Expr.walkScopes_plain h cx.write l he.1 hs
    obtain ⟨hr, hs⟩ := Expr.walkScopes_plain h cx.read r he.2 hs
    exact ⟨Bool.and_eq_true _ _ ▸ ⟨hl, hr⟩, hs⟩
  | .call callee args _ =>
    rw [Expr.isPlain, Bool.and_eq_true] at he
    obtain ⟨hc, hs⟩ := Expr.walkScopes_plain h cx.read callee he.1 hs
    obtain ⟨ha, hs⟩ := Expr.walkScopesList_plain h cx.read args he.2 hs
    exact ⟨Bool.and_eq_true _ _ ▸ ⟨hc, ha⟩, h.callOf _ hs⟩
  | .new callee args =>
    rw [Expr.isPlain, Bool.and_eq_true] at he
    obtain ⟨hc, hs⟩ := Expr.walkScopes_plain h cx callee he.1 hs
    obtain ⟨ha, hs⟩ := Expr.walkScopesList_plain h cx args he.2 hs
    exact ⟨Bool.and_eq_true _ _ ▸ ⟨hc, ha⟩, hs⟩
  | .member object name _ => exact Expr.walkScopes_plain h cx.read object he hs
  | .index object key _ =>
    rw [Expr.isPlain, Bool.and_eq_true] at he
    obtain ⟨ho, hs⟩ := Expr.walkScopes_plain h cx.read object he.1 hs
    obtain ⟨hk, hs⟩ := Expr.walkScopes_plain h cx.read key he.2 hs
    exact ⟨Bool.and_eq_true _ _ ▸ ⟨ho, hk⟩, hs⟩
  | .yield arg _ => exact Expr.walkScopesOpt_plain h cx arg he hs

theorem Expr.walkScopesOpt_plain (h : KeepsPlain v I) (cx : Context) (e : Option Expr)
    (he : Expr.optPlain e = true) {s : σ} (hs : I s) :
    Expr.optPlain (Expr.walkScopesOpt v cx e s).1 = true ∧ I (Expr.walkScopesOpt v cx e s).2 := by
  match e with
  | none => exact ⟨rfl, hs⟩
  | some e => exact Expr.walkScopes_plain h cx e he hs

theorem Expr.walkScopesList_plain (h : KeepsPlain v I) (cx : Context) (es : List Expr)
    (hes : Expr.allPlain es = true) {s : σ} (hs : I s) :
    Expr.allPlain (Expr.walkScopesList v cx es s).1 = true ∧ I (Expr.walkScopesList v cx es s).2 := by
  match es with
  | [] => exact ⟨rfl, hs⟩
  | e :: es =>
    rw [Expr.allPlain, Bool.and_eq_true] at hes
    obtain ⟨he, hs⟩ := Expr.walkScopes_plain h cx e hes.1 hs
    obtain ⟨hes, hs⟩ := Expr.walkScopesList_plain h cx es hes.2 hs
    exact ⟨Bool.and_eq_true _ _ ▸ ⟨he, hes⟩, hs⟩

theorem Property.walkScopes_plain (h : KeepsPlain v I) (cx : Context) (p : Property)
    (hp : p.isPlain = true) {s : σ} (hs : I s) :
    (p.walkScopes v cx s).1.isPlain = true ∧ I (p.walkScopes v cx s).2 := by
  match p with
  | .short id init => exact Expr.walkScopesOpt_plain h cx.read init hp (h.refer _ id hs)
  | .keyed key kind value computed =>
    rw [Property.isPlain, Bool.and_eq_true] at hp
    cases computed with
    | false => exact Expr.walkScopes_plain h cx value hp.2 hs
    | true =>
      obtain ⟨hk, hs⟩ := Expr.walkScopes_plain h cx.read key hp.1 hs
      obtain ⟨hv, hs⟩ := Expr.walkScopes_plain h cx value hp.2 hs
      exact ⟨Bool.and_eq_true _ _ ▸ ⟨hk, hv⟩, hs⟩
  | .spread e => exact Expr.walkScopes_plain h cx e hp hs

theorem Property.walkScopesList_plain (h : KeepsPlain v I) (cx : Context) (ps : List Property)
    (hps : Property.allPlain ps = true) {s : σ} (hs : I s) :
    Property.allPlain (Property.walkScopesList v cx ps s).1 = true ∧
      I (Property.walkScopesList v cx ps s).2 := by
  match ps with
  | [] => exact ⟨rfl, hs⟩
  | p :: ps =>
    rw [Property.allPlain, Bool.and_eq_true] at hps
    obtain ⟨hp, hs⟩ := Property.walkScopes_plain h cx p hps.1 hs
    obtain ⟨hps, hs⟩ := Property.walkScopesList_plain h cx ps hps.2 hs
    exact ⟨Bool.and_eq_true _ _ ▸ ⟨hp, hps⟩, hs⟩

end

mutual

theorem Stmt.walkScopes_plain (h : KeepsPlain v I) (cx : Context) (t : Stmt) (ht : t.isPlain = true)
    {s : σ} (hs : I s) : (t.walkScopes v cx none s).1.isPlain = true ∧ I (t.walkScopes v cx none s).2 := by
  match t with
  | .empty | .brk _ | .cont _ => exact ⟨rfl, hs⟩
  | .expr e | .throw e => exact Expr.walkScopes_plain h cx e ht hs
  | .ret arg => exact Expr.walkScopesOpt_plain h cx arg ht hs
  | .block ts =>
    exact h.inScope .block .block (Stmt.walkScopesList v cx ts) (fun ts => Stmt.allPlain ts = true)
      (fun hs => Stmt.walkScopesList_plain h cx ts ht hs) hs
  | .cond test yes no =>
    rw [Stmt.isPlain, Bool.and_eq_true, Bool.and_eq_true] at ht
    obtain ⟨htest, hs⟩ := Expr.walkScopes_plain h cx test ht.1.1 hs
    obtain ⟨hy, hs⟩ := Stmt.walkScopes_plain h cx yes ht.1.2 hs
    obtain ⟨hn, hs⟩ := Stmt.walkScopesOpt_plain h cx no ht.2 hs
    refine ⟨?_, hs⟩
    show (_ && _ && _) = true
    rw [htest, hy, hn]
    rfl

theorem Stmt.walkScopesOpt_plain (h : KeepsPlain v I) (cx : Context) (t : Option Stmt)
    (ht : Stmt.optPlain t = true) {s : σ} (hs : I s) :
    Stmt.optPlain (Stmt.walkScopesOpt v cx t s).1 = true ∧ I (Stmt.walkScopesOpt v cx t s).2 := by
  match t with
  | none => exact ⟨rfl, hs⟩
  | some t => exact Stmt.walkScopes_plain h cx t ht hs

theorem Stmt.walkScopesList_plain (h : KeepsPlain v I) (cx : Context) (ts : List Stmt)
    (hts : Stmt.allPlain ts = true) {s : σ} (hs : I s) :
    Stmt.allPlain (Stmt.walkScopesList v cx ts s).1 = true ∧ I (Stmt.walkScopesList v cx ts s).2 := by
  match ts with
  | [] => exact ⟨rfl, hs⟩
  | t :: ts =>
    rw [Stmt.allPlain, Bool.and_eq_true] at hts
    obtain ⟨ht, hs⟩ := Stmt.walkScopes_plain h cx t hts.1 hs
    obtain ⟨hts, hs⟩ := Stmt.walkScopesList_plain h cx ts hts.2 hs
    exact ⟨Bool.and_eq_true _ _ ▸ ⟨ht, hts⟩, hs⟩

end

theorem Hoist.keepsPlain : KeepsPlain Hoist.visitor fun s => s.bindings.size = 0 where
  refer _ _ _ hs := hs
  called _ _ hs := hs
  inScope kind opener _ s _ hact hs := hact (s := s.entering kind opener) hs

theorem Resolve.Keeps.size {s t : Resolve.State} (h : Resolve.Keeps s t) :
    t.info.bindings.size = s.info.bindings.size := by
  simpa using congrArg Array.size h.origins

theorem Resolve.keepsPlain : KeepsPlain Resolve.visitor fun s => s.info.bindings.size = 0 where
  refer writing id _ hs := (Resolve.refer_keeps writing id _).size.trans hs
  called id _ hs := (Resolve.called_keeps id _).size.trans hs
  inScope _ _ _ s _ hact hs :=
    hact (s := { s with entered := s.entered + 1, path := (s.entered + 1) :: s.path }) hs

theorem Program.walkScopes_plain (h : KeepsPlain v I) (p : Program) (hp : Stmt.allPlain p.body = true)
    {s : σ} (hs : I s) :
    Stmt.allPlain (p.walkScopes v s).1.body = true ∧ I (p.walkScopes v s).2 :=
  h.inScope .program .program (do return Program.mk (← Stmt.walkScopesList v {} p.body))
    (fun p => Stmt.allPlain p.body = true) (fun hs => Stmt.walkScopesList_plain h {} p.body hp hs) hs

/-- Nothing in a plain program is bound, and resolution leaves it plain. -/
theorem Program.resolve_plain {p : Program} (hp : Stmt.allPlain p.body = true) :
    Stmt.allPlain p.resolve.1.body = true ∧ p.resolve.2.bindings.size = 0 := by
  obtain ⟨hh, hb⟩ := Program.walkScopes_plain Hoist.keepsPlain p hp (s := Hoist.State.start) rfl
  rw [Program.resolve_eq]
  generalize p.walkScopes Hoist.visitor Hoist.State.start = h at hh hb ⊢
  exact Program.walkScopes_plain Resolve.keepsPlain h.1 hh (s := h.2.resolving) hb

/-- The names of a plain program stay. -/
theorem Elimination.State.start_keepsAll {p : Program} (hp : Stmt.allPlain p.body = true) (usage : Usage)
    (ids : List Ident) : (State.start p.resolve.1 p.resolve.2 usage).KeepsAll ids := by
  intro id _ i b _ hb
  have hlt := (Array.getElem?_eq_some_iff.1 hb).1
  exact absurd ((Program.resolve_plain hp).2 ▸ hlt) (Nat.not_lt_zero i)

end Resolution

end Deadwood
