import Deadwood.Proofs.Head
import Deadwood.Removal
import Mathlib.Logic.Basic

/-!
# What a removal does to the result of a fold

`Removes` lists what has to be shown of a relation between the result of one fold before a removal and the
result of another one after it.  Then it holds of the removal on every piece of syntax.  A removal that
never sets the mark takes nothing out, and what goes with the mark need not be thought of there.
-/

namespace Deadwood

/-! ### Marks -/

namespace Removal

/-- Nothing sets the mark. -/
structure IsUnmarked (r : Removal) : Prop where
  marks : ∀ id, r.marks id = false
  func : ∀ f, r.dropsFunc f = false
  cls : ∀ c, r.dropsClass c = false
  keepsEmpty : r.dropsEmpty = false

/-- The mark is set only where something can set it. -/
def Allows (r : Removal) (m : Bool) : Prop := r.IsUnmarked → m = false

variable {r : Removal} {m : Bool}

theorem allows_false : r.Allows false := fun _ => rfl

theorem not_isUnmarked (h : r.Allows m) (hm : m = true) : ¬ r.IsUnmarked := by
  intro hr
  rw [h hr] at hm
  cases hm

theorem allows_ident (h : r.Allows m) (id : Ident) : r.Allows (r.ident id m).2 := by
  intro hr
  simp only [ident, hr.marks id, Bool.false_eq_true, if_false]
  exact h hr

theorem allows_optIdent (h : r.Allows m) (id : Option Ident) : r.Allows (r.optIdent id m).2 := by
  cases id with
  | none => exact h
  | some id => exact allows_ident h id

theorem allows_forM {γ : Type} (f : γ → Ident) (cs : List γ) (h : r.Allows m) :
    r.Allows ((cs.forM fun c => r.ident (f c)) m).2 := by
  induction cs generalizing m with
  | nil => exact h
  | cons c cs ih => exact ih (allows_ident h (f c))

/-- The mark of a declaration that may have lost all its declarators. -/
theorem allows_emptied (h : r.Allows m) (ds : List Declarator) :
    r.Allows ((if r.dropsEmpty && ds.isEmpty then mark else pure () : Walk Unit) m).2 := by
  intro hr
  simp only [hr.keepsEmpty, Bool.false_and, Bool.false_eq_true, if_false]
  exact h hr

end Removal

open Removal

/-! ### Heads and names are kept -/

theorem Func.remove_head (r : Removal) (f : Func) (m : Bool) : (f.remove r m).1.head = f.head := by
  cases f
  rfl

theorem ClassElement.removeList_head (r : Removal) (es : List ClassElement) (m : Bool) :
    (ClassElement.removeList r es m).1.map ClassElement.head = es.map ClassElement.head := by
  induction es generalizing m with
  | nil => rfl
  | cons e es ih =>
    refine List.cons_eq_cons.2 ⟨?_, ih _⟩
    cases e with
    | field key init computed => cases computed <;> rfl
    | method key kind body computed => cases computed <;> rfl
    | block body => rfl

theorem Class.remove_head (r : Removal) (c : Class) (m : Bool) : (c.remove r m).1.head = c.head := by
  cases c with
  | mk name superclass body decorators =>
    exact congrArg (Class.mk name none · []) (ClassElement.removeList_head r body _)

theorem Pattern.remove_head (r : Removal) (p : Pattern) (m : Bool) :
    (p.remove r m).1.head = p.head := by
  cases p <;> rfl

mutual

theorem Pattern.remove_names (r : Removal) (p : Pattern) (m : Bool) :
    (p.remove r m).1.names = p.names := by
  match p with
  | .hole | .ident _ => rfl
  | .array elems rest =>
    exact congrArg₂ (· ++ ·) (Declarator.removeList_names r elems m) (Pattern.removeOpt_names r rest _)
  | .object props rest =>
    exact congrArg₂ (· ++ ·) (PatternProp.removeList_names r props m) (Pattern.removeOpt_names r rest _)

theorem Pattern.removeOpt_names (r : Removal) (p : Option Pattern) (m : Bool) :
    Pattern.optNames (Pattern.removeOpt r p m).1 = Pattern.optNames p := by
  match p with
  | none => rfl
  | some p => exact Pattern.remove_names r p m

theorem Declarator.remove_names (r : Removal) (d : Declarator) (m : Bool) :
    (d.remove r m).1.names = d.names := by
  match d with
  | .mk _ target _ => exact Pattern.remove_names r target m

theorem Declarator.removeList_names (r : Removal) (ds : List Declarator) (m : Bool) :
    Declarator.listNames (Declarator.removeList r ds m).1 = Declarator.listNames ds := by
  match ds with
  | [] => rfl
  | d :: ds =>
    exact congrArg₂ (· ++ ·) (Declarator.remove_names r d m) (Declarator.removeList_names r ds _)

theorem PatternProp.remove_names (r : Removal) (p : PatternProp) (m : Bool) :
    (p.remove r m).1.names = p.names := by
  match p with
  | .mk key computed _ value =>
    have hv := Declarator.remove_names r value
    cases computed <;> exact hv _

theorem PatternProp.removeList_names (r : Removal) (ps : List PatternProp) (m : Bool) :
    PatternProp.listNames (PatternProp.removeList r ps m).1 = PatternProp.listNames ps := by
  match ps with
  | [] => rfl
  | p :: ps =>
    exact congrArg₂ (· ++ ·) (PatternProp.remove_names r p m) (PatternProp.removeList_names r ps _)

end

/-! ### Relations kept by a removal -/

variable {α β : Type}

/-- The parts of two folds respect a relation between the result of the first on what a removal is given
and the result of the second on what it leaves. -/
structure Removes (r : Removal) (F : Fold α) (G : Fold β) (R : α → β → Prop) : Prop where
  empty_left : ∀ b, G.append G.empty b = b
  empty : R F.empty G.empty
  append : ∀ {a b a' b'}, R a b → R a' b' → R (F.append a a') (G.append b b')
  ident : ∀ role id, R (F.ident role id) (G.ident role id)
  hole : R F.hole G.hole
  expr : ∀ {e e' a b}, (∀ f, e = .func f → r.otherFunc f = none) →
    (∀ c, e = .cls c → r.otherClass c = none) → e.head = e'.head → R a b →
    R (F.expr e a) (G.expr e' b)
  stmt : ∀ {t t' a b}, t.head = t'.head → R a b → R (F.stmt t a) (G.stmt t' b)
  property : ∀ {p p' a b}, p.Becomes p' → R a b → R (F.property p a) (G.property p' b)
  declarator : ∀ {site target target' init init' a b}, r.dropsDeclarator site = false →
    target.head = target'.head → target.names = target'.names → init.isSome = init'.isSome → R a b →
    R (F.declarator (.mk site target init) a) (G.declarator (.mk site target' init') b)
  element : ∀ {site target target' init init' a b}, target.head = target'.head →
    target.names = target'.names → init.isSome = init'.isSome → R a b →
    R (F.element (.mk site target init) a) (G.element (.mk site target' init') b)
  funcDecl : ∀ {f f' a b}, r.dropsFunc f = false → f.head = f'.head → R a b →
    R (F.funcDecl f a) (G.funcDecl f' b)
  clsDecl : ∀ {c c' a b}, r.dropsClass c = false → c.head = c'.head → R a b →
    R (F.clsDecl c a) (G.clsDecl c' b)
  otherFunc : ∀ {f g}, r.otherFunc f = some g → R ((Expr.func f).fold F) ((Expr.func g).fold G)
  otherClass : ∀ {c d}, r.otherClass c = some d → R ((Expr.cls c).fold F) ((Expr.cls d).fold G)
  dropped : ∀ kind {d : Declarator}, r.dropsDeclarator d.site = true → R (d.fold F kind) G.empty
  gone : ¬ r.IsUnmarked → ∀ a, R a G.empty
  emptied : ¬ r.IsUnmarked → ∀ t : Stmt, R (t.fold F) (Stmt.empty.fold G)

variable {r : Removal} {F : Fold α} {G : Fold β} {R : α → β → Prop}

theorem Removes.optIdent (h : Removes r F G R) (role : Role) (id : Option Ident) :
    R (F.optIdent role id) (G.optIdent role id) := by
  cases id with
  | none => exact h.empty
  | some id => exact h.ident role id

theorem Removes.all (h : Removes r F G R) {γ : Type} (role : Role) (f : γ → Ident) (cs : List γ) :
    R (F.all (fun c => F.ident role (f c)) cs) (G.all (fun c => G.ident role (f c)) cs) := by
  induction cs with
  | nil => exact h.empty
  | cons c cs ih => exact h.append (h.ident role (f c)) ih

/-- A slot takes the mark, so what it holds in the end is related. -/
theorem Removes.slot (h : Removes r F G R) {t t' : Stmt} {m : Bool}
    (ht : (m = true ∨ R (t.fold F) (t'.fold G)) ∧ r.Allows m) :
    R (t.fold F) ((slot t' m).1.fold G) ∧ r.Allows (slot t' m).2 := by
  refine ⟨?_, allows_false⟩
  cases m with
  | true => exact h.emptied (not_isUnmarked ht.2 rfl) t
  | false =>
    rcases ht.1 with hm | ht
    · cases hm
    · exact ht

theorem Removes.headSlot (h : Removes r F G R) {a : α} {head : ForHead} {m : Bool}
    (hh : R a (head.fold G) ∧ r.Allows m) :
    R a ((headSlot head m).1.fold G) ∧ r.Allows (headSlot head m).2 := by
  cases head with
  | empty => exact hh
  | decl kind list =>
    cases m with
    | true => exact ⟨h.gone (not_isUnmarked hh.2 rfl) a, allows_false⟩
    | false => exact ⟨hh.1, allows_false⟩
  | expr e =>
    cases m with
    | true => exact ⟨h.gone (not_isUnmarked hh.2 rfl) a, allows_false⟩
    | false => exact ⟨hh.1, allows_false⟩

mutual

theorem Expr.remove_related (h : Removes r F G R) (e : Expr) (m : Bool) (hm : r.Allows m) :
    R (e.fold F) ((e.remove r m).1.fold G) ∧ r.Allows (e.remove r m).2 := by
  match e with
  | .hole | .this | .super | .null | .bool _ | .number .. | .string _ | .regExp .. =>
    exact ⟨h.expr nofun nofun rfl h.empty, hm⟩
  | .ident id => exact ⟨h.expr nofun nofun rfl (h.ident _ id), allows_ident hm id⟩
  | .template tag _ es =>
    have ht := Expr.removeOpt_related h tag m hm
    have hes := Expr.removeList_related h es _ ht.2
    refine ⟨h.expr nofun nofun ?_ (h.append ht.1 hes.1), hes.2⟩
    cases tag <;> rfl
  | .array es =>
    have hes := Expr.removeList_related h es m hm
    exact ⟨h.expr nofun nofun rfl hes.1, hes.2⟩
  | .seq es =>
    have hes := Expr.removeList_related h es m hm
    exact ⟨h.expr nofun nofun rfl hes.1, hes.2⟩
  | .object ps =>
    have hps := Property.removeList_related h ps m hm
    exact ⟨h.expr nofun nofun rfl hps.1, hps.2⟩
  | .spread e =>
    have he := Expr.remove_related h e m hm
    exact ⟨h.expr nofun nofun rfl he.1, he.2⟩
  | .unary _ e =>
    have he := Expr.remove_related h e m hm
    exact ⟨h.expr nofun nofun rfl he.1, he.2⟩
  | .update _ e _ =>
    have he := Expr.remove_related h e m hm
    exact ⟨h.expr nofun nofun rfl he.1, he.2⟩
  | .await e =>
    have he := Expr.remove_related h e m hm
    exact ⟨h.expr nofun nofun rfl he.1, he.2⟩
  | .func f =>
    have hf := Func.remove_related h .own f m hm
    simp only [Expr.remove]
    cases hr : r.otherFunc f with
    | some g => exact ⟨h.otherFunc hr, hm⟩
    | none =>
      refine ⟨h.expr ?_ nofun (congrArg Expr.func (f.remove_head r m).symm) hf.1, hf.2⟩
      rintro _ ⟨⟩
      exact hr
  | .arrow params rest body _ =>
    have hps := Declarator.removeList_related h .param params m hm
    have hrest := Pattern.removeOpt_related h .param rest _ hps.2
    have hb := Expr.remove_related h body _ hrest.2
    exact ⟨h.expr nofun nofun rfl (h.append hps.1 (h.append hrest.1 hb.1)), hb.2⟩
  | .arrowBlock params rest body _ =>
    have hps := Declarator.removeList_related h .param params m hm
    have hrest := Pattern.removeOpt_related h .param rest _ hps.2
    have hb := Stmt.removeList_related h body _ hrest.2
    exact ⟨h.expr nofun nofun rfl (h.append hps.1 (h.append hrest.1 hb.1)), hb.2⟩
  | .cls c =>
    have hc := Class.remove_related h .own c m hm
    simp only [Expr.remove]
    cases hr : r.otherClass c with
    | some d => exact ⟨h.otherClass hr, hm⟩
    | none =>
      refine ⟨h.expr nofun ?_ (congrArg Expr.cls (c.remove_head r m).symm) hc.1, hc.2⟩
      rintro _ ⟨⟩
      exact hr
  | .binary _ x y =>
    have hx := Expr.remove_related h x m hm
    have hy := Expr.remove_related h y _ hx.2
    exact ⟨h.expr nofun nofun rfl (h.append hx.1 hy.1), hy.2⟩
  | .assign _ x y =>
    have hx := Expr.remove_related h x m hm
    have hy := Expr.remove_related h y _ hx.2
    exact ⟨h.expr nofun nofun rfl (h.append hx.1 hy.1), hy.2⟩
  | .cond test yes no =>
    have ht := Expr.remove_related h test m hm
    have hy := Expr.remove_related h yes _ ht.2
    have hn := Expr.remove_related h no _ hy.2
    exact ⟨h.expr nofun nofun rfl (h.append ht.1 (h.append hy.1 hn.1)), hn.2⟩
  | .call callee args _ =>
    have hc := Expr.remove_related h callee m hm
    have has := Expr.removeList_related h args _ hc.2
    exact ⟨h.expr nofun nofun rfl (h.append hc.1 has.1), has.2⟩
  | .new callee args =>
    have hc := Expr.remove_related h callee m hm
    have has := Expr.removeList_related h args _ hc.2
    exact ⟨h.expr nofun nofun rfl (h.append hc.1 has.1), has.2⟩
  | .member object name _ =>
    have ho := Expr.remove_related h object m hm
    exact ⟨h.expr nofun nofun rfl (h.append ho.1 (h.ident _ name)), allows_ident ho.2 name⟩
  | .index object key _ =>
    have ho := Expr.remove_related h object m hm
    have hk := Expr.remove_related h key _ ho.2
    exact ⟨h.expr nofun nofun rfl (h.append ho.1 hk.1), hk.2⟩
  | .yield arg _ =>
    have ha := Expr.removeOpt_related h arg m hm
    refine ⟨h.expr nofun nofun ?_ ha.1, ha.2⟩
    cases arg <;> rfl

theorem Expr.removeOpt_related (h : Removes r F G R) (e : Option Expr) (m : Bool) (hm : r.Allows m) :
    R (Expr.foldOpt F e) (Expr.foldOpt G (Expr.removeOpt r e m).1) ∧
      r.Allows (Expr.removeOpt r e m).2 := by
  match e with
  | none => exact ⟨h.empty, hm⟩
  | some e => exact Expr.remove_related h e m hm

theorem Expr.removeList_related (h : Removes r F G R) (es : List Expr) (m : Bool)
    (hm : r.Allows m) :
    R (Expr.foldList F es) (Expr.foldList G (Expr.removeList r es m).1) ∧
      r.Allows (Expr.removeList r es m).2 := by
  match es with
  | [] => exact ⟨h.empty, hm⟩
  | e :: es =>
    have he := Expr.remove_related h e m hm
    have hes := Expr.removeList_related h es false allows_false
    refine ⟨?_, hes.2⟩
    cases hg : (e.remove r m).2 with
    | false =>
      have hl : (Expr.removeList r (e :: es) m).1 =
          (e.remove r m).1 :: (Expr.removeList r es false).1 := by
        simp only [Expr.removeList, run_bind, run_pure, take, hg]
        rfl
      rw [hl]
      exact h.append he.1 hes.1
    | true =>
      have hl : (Expr.removeList r (e :: es) m).1 = (Expr.removeList r es false).1 := by
        simp only [Expr.removeList, run_bind, run_pure, take, hg]
        rfl
      rw [hl, ← h.empty_left (Expr.foldList G _)]
      exact h.append (h.gone (not_isUnmarked he.2 hg) _) hes.1

theorem Expr.removeEach_related (h : Removes r F G R) (es : List Expr) (m : Bool)
    (hm : r.Allows m) :
    R (Expr.foldList F es) (Expr.foldList G (Expr.removeEach r es m).1) ∧
      r.Allows (Expr.removeEach r es m).2 := by
  match es with
  | [] => exact ⟨h.empty, hm⟩
  | e :: es =>
    have he := Expr.remove_related h e m hm
    have hes := Expr.removeEach_related h es _ he.2
    exact ⟨h.append he.1 hes.1, hes.2⟩

theorem Property.remove_related (h : Removes r F G R) (p : Property) (m : Bool) (hm : r.Allows m) :
    R (p.fold F) ((p.remove r m).1.fold G) ∧ r.Allows (p.remove r m).2 := by
  match p with
  | .short id init =>
    have hi := Expr.removeOpt_related h init _ (allows_ident hm id)
    refine ⟨h.property (.short ?_) (h.append (h.ident _ id) hi.1), hi.2⟩
    cases init <;> rfl
  | .keyed key kind value computed =>
    have hf : ∀ m f, value = .func f → ∃ g, (value.remove r m).1 = .func g := by
      rintro m f rfl
      simp only [Expr.remove]
      cases r.otherFunc f with
      | none => exact ⟨_, rfl⟩
      | some g => exact ⟨g, rfl⟩
    cases computed with
    | false =>
      have hv := Expr.remove_related h value m hm
      exact ⟨h.property (.keyed kind false (hf _)) (h.append h.empty hv.1), hv.2⟩
    | true =>
      have hk := Expr.remove_related h key m hm
      have hv := Expr.remove_related h value _ hk.2
      exact ⟨h.property (.keyed kind true (hf _)) (h.append hk.1 hv.1), hv.2⟩
  | .spread e =>
    have he := Expr.remove_related h e m hm
    exact ⟨h.property .spread he.1, he.2⟩

theorem Property.removeList_related (h : Removes r F G R) (ps : List Property) (m : Bool)
    (hm : r.Allows m) :
    R (Property.foldList F ps) (Property.foldList G (Property.removeList r ps m).1) ∧
      r.Allows (Property.removeList r ps m).2 := by
  match ps with
  | [] => exact ⟨h.empty, hm⟩
  | p :: ps =>
    have hp := Property.remove_related h p m hm
    have hps := Property.removeList_related h ps _ hp.2
    exact ⟨h.append hp.1 hps.1, hps.2⟩

theorem Func.remove_related (h : Removes r F G R) (kind : BindingKind) (f : Func) (m : Bool)
    (hm : r.Allows m) :
    R (f.fold F kind) ((f.remove r m).1.fold G kind) ∧ r.Allows (f.remove r m).2 := by
  match f with
  | .mk name params rest body async generator =>
    have hps := Declarator.removeList_related h .param params _ (allows_optIdent hm name)
    have hrest := Pattern.removeOpt_related h .param rest _ hps.2
    have hb := Stmt.removeList_related h body _ hrest.2
    exact ⟨h.append (h.optIdent _ name) (h.append hps.1 (h.append hrest.1 hb.1)), hb.2⟩

theorem Class.remove_related (h : Removes r F G R) (kind : BindingKind) (c : Class) (m : Bool)
    (hm : r.Allows m) :
    R (c.fold F kind) ((c.remove r m).1.fold G kind) ∧ r.Allows (c.remove r m).2 := by
  match c with
  | .mk name superclass body decorators =>
    have hds := Expr.removeEach_related h decorators m hm
    have hs := Expr.removeOpt_related h superclass _ (allows_optIdent hds.2 name)
    have hb := ClassElement.removeList_related h body _ hs.2
    exact ⟨h.append hds.1 (h.append (h.optIdent _ name) (h.append hs.1 hb.1)), hb.2⟩

theorem ClassElement.remove_related (h : Removes r F G R) (e : ClassElement) (m : Bool)
    (hm : r.Allows m) :
    R (e.fold F) ((e.remove r m).1.fold G) ∧ r.Allows (e.remove r m).2 := by
  match e with
  | .field key init computed _ =>
    cases computed with
    | false =>
      have hi := Expr.removeOpt_related h init m hm
      exact ⟨h.append h.empty hi.1, hi.2⟩
    | true =>
      have hk := Expr.remove_related h key m hm
      have hi := Expr.removeOpt_related h init _ hk.2
      exact ⟨h.append hk.1 hi.1, hi.2⟩
  | .method key _ body computed _ =>
    cases computed with
    | false =>
      have hb := Func.remove_related h .own body m hm
      exact ⟨h.append h.empty hb.1, hb.2⟩
    | true =>
      have hk := Expr.remove_related h key m hm
      have hb := Func.remove_related h .own body _ hk.2
      exact ⟨h.append hk.1 hb.1, hb.2⟩
  | .block body => exact Stmt.removeList_related h body m hm

theorem ClassElement.removeList_related (h : Removes r F G R) (es : List ClassElement) (m : Bool)
    (hm : r.Allows m) :
    R (ClassElement.foldList F es) (ClassElement.foldList G (ClassElement.removeList r es m).1) ∧
      r.Allows (ClassElement.removeList r es m).2 := by
  match es with
  | [] => exact ⟨h.empty, hm⟩
  | e :: es =>
    have he := ClassElement.remove_related h e m hm
    have hes := ClassElement.removeList_related h es _ he.2
    exact ⟨h.append he.1 hes.1, hes.2⟩

theorem Pattern.remove_related (h : Removes r F G R) (kind : BindingKind) (p : Pattern) (m : Bool)
    (hm : r.Allows m) :
    R (p.fold F kind) ((p.remove r m).1.fold G kind) ∧ r.Allows (p.remove r m).2 := by
  match p with
  | .hole => exact ⟨h.hole, hm⟩
  | .ident id => exact ⟨h.ident _ id, allows_ident hm id⟩
  | .array elems rest =>
    have hes := Declarator.removeList_related h kind elems m hm
    have hrest := Pattern.removeOpt_related h kind rest _ hes.2
    exact ⟨h.append hes.1 hrest.1, hrest.2⟩
  | .object props rest =>
    have hps := PatternProp.removeList_related h kind props m hm
    have hrest := Pattern.removeOpt_related h kind rest _ hps.2
    exact ⟨h.append hps.1 hrest.1, hrest.2⟩

theorem Pattern.removeOpt_related (h : Removes r F G R) (kind : BindingKind) (p : Option Pattern)
    (m : Bool) (hm : r.Allows m) :
    R (Pattern.foldOpt F kind p) (Pattern.foldOpt G kind (Pattern.removeOpt r p m).1) ∧
      r.Allows (Pattern.removeOpt r p m).2 := by
  match p with
  | none => exact ⟨h.empty, hm⟩
  | some p => exact Pattern.remove_related h kind p m hm

theorem Declarator.remove_related (h : Removes r F G R) (kind : BindingKind) (d : Declarator)
    (m : Bool) (hm : r.Allows m) :
    R (d.foldElem F kind) ((d.remove r m).1.foldElem G kind) ∧
      (r.dropsDeclarator d.site = false → R (d.fold F kind) ((d.remove r m).1.fold G kind)) ∧
      r.Allows (d.remove r m).2 := by
  match d with
  | .mk site target init =>
    have ht := Pattern.remove_related h kind target m hm
    have hi := Expr.removeOpt_related h init _ ht.2
    have hsome : init.isSome = (Expr.removeOpt r init (target.remove r m).2).1.isSome := by
      cases init <;> rfl
    have hp := h.append ht.1 hi.1
    refine ⟨?_, fun hs => ?_, hi.2⟩
    · exact h.element (target.remove_head r m).symm (target.remove_names r m).symm hsome hp
    · exact h.declarator hs (target.remove_head r m).symm (target.remove_names r m).symm hsome hp

theorem Declarator.removeList_related (h : Removes r F G R) (kind : BindingKind)
    (ds : List Declarator) (m : Bool) (hm : r.Allows m) :
    R (Declarator.foldElems F kind ds) (Declarator.foldElems G kind (Declarator.removeList r ds m).1) ∧
      r.Allows (Declarator.removeList r ds m).2 := by
  match ds with
  | [] => exact ⟨h.empty, hm⟩
  | d :: ds =>
    have hd := Declarator.remove_related h kind d m hm
    have hds := Declarator.removeList_related h kind ds _ hd.2.2
    exact ⟨h.append hd.1 hds.1, hds.2⟩

theorem Declarator.removeDecls_related (h : Removes r F G R) (kind : BindingKind)
    (ds : List Declarator) (m : Bool) (hm : r.Allows m) :
    R (Declarator.foldList F kind ds) (Declarator.foldList G kind (Declarator.removeDecls r ds m).1) ∧
      r.Allows (Declarator.removeDecls r ds m).2 := by
  match ds with
  | [] => exact ⟨h.empty, hm⟩
  | d :: ds =>
    rw [Declarator.removeDecls]
    split
    next hdrop =>
      have hds := Declarator.removeDecls_related h kind ds m hm
      refine ⟨?_, hds.2⟩
      rw [← h.empty_left (Declarator.foldList G kind _)]
      exact h.append (h.dropped kind hdrop) hds.1
    next hkeep =>
      have hd := Declarator.remove_related h kind d m hm
      have hds := Declarator.removeDecls_related h kind ds _ hd.2.2
      exact ⟨h.append (hd.2.1 (Bool.eq_false_iff.2 hkeep)) hds.1, hds.2⟩

theorem PatternProp.remove_related (h : Removes r F G R) (kind : BindingKind) (p : PatternProp)
    (m : Bool) (hm : r.Allows m) :
    R (p.fold F kind) ((p.remove r m).1.fold G kind) ∧ r.Allows (p.remove r m).2 := by
  match p with
  | .mk key computed _ value =>
    cases computed with
    | false =>
      have hv := Declarator.remove_related h kind value m hm
      exact ⟨h.append h.empty hv.1, hv.2.2⟩
    | true =>
      have hk := Expr.remove_related h key m hm
      have hv := Declarator.remove_related h kind value _ hk.2
      exact ⟨h.append hk.1 hv.1, hv.2.2⟩

theorem PatternProp.removeList_related (h : Removes r F G R) (kind : BindingKind)
    (ps : List PatternProp) (m : Bool) (hm : r.Allows m) :
    R (PatternProp.foldList F kind ps) (PatternProp.foldList G kind (PatternProp.removeList r ps m).1) ∧
      r.Allows (PatternProp.removeList r ps m).2 := by
  match ps with
  | [] => exact ⟨h.empty, hm⟩
  | p :: ps =>
    have hp := PatternProp.remove_related h kind p m hm
    have hps := PatternProp.removeList_related h kind ps _ hp.2
    exact ⟨h.append hp.1 hps.1, hps.2⟩

/-- A statement that has set the mark is taken out by the slot around it, so nothing is said of it. -/
theorem Stmt.remove_related (h : Removes r F G R) (t : Stmt) (m : Bool) (hm : r.Allows m) :
    ((t.remove r m).2 = true ∨ R (t.fold F) ((t.remove r m).1.fold G)) ∧
      r.Allows (t.remove r m).2 := by
  match t with
  | .empty | .debugger | .exportAll .. => exact ⟨.inr (h.stmt rfl h.empty), hm⟩
  | .block body =>
    have hb := Stmt.removeList_related h body m hm
    exact ⟨.inr (h.stmt rfl hb.1), hb.2⟩
  | .expr e =>
    have he := Expr.remove_related h e m hm
    exact ⟨.inr (h.stmt rfl he.1), he.2⟩
  | .cond test yes no =>
    have ht := Expr.remove_related h test m hm
    have hy := h.slot (Stmt.remove_related h yes _ ht.2)
    have hn := Stmt.removeOpt_related h no _ hy.2
    exact ⟨.inr (h.stmt rfl (h.append ht.1 (h.append hy.1 hn.1))), hn.2⟩
  | .ret arg =>
    have ha := Expr.removeOpt_related h arg m hm
    exact ⟨.inr (h.stmt rfl ha.1), ha.2⟩
  | .throw arg =>
    have ha := Expr.remove_related h arg m hm
    exact ⟨.inr (h.stmt rfl ha.1), ha.2⟩
  | .brk label => exact ⟨.inr (h.stmt rfl (h.optIdent _ label)), allows_optIdent hm label⟩
  | .cont label => exact ⟨.inr (h.stmt rfl (h.optIdent _ label)), allows_optIdent hm label⟩
  | .labelled label body =>
    have hb := h.slot (Stmt.remove_related h body _ (allows_ident hm label))
    exact ⟨.inr (h.stmt rfl (h.append (h.ident _ label) hb.1)), hb.2⟩
  | .while test body =>
    have ht := Expr.remove_related h test m hm
    have hb := h.slot (Stmt.remove_related h body _ ht.2)
    exact ⟨.inr (h.stmt rfl (h.append ht.1 hb.1)), hb.2⟩
  | .doWhile body test =>
    have hb := h.slot (Stmt.remove_related h body m hm)
    have ht := Expr.remove_related h test _ hb.2
    exact ⟨.inr (h.stmt rfl (h.append hb.1 ht.1)), ht.2⟩
  | .for head test update body =>
    have hh := h.headSlot (ForHead.remove_related h head m hm)
    have ht := Expr.removeOpt_related h test _ hh.2
    have hu := Expr.removeOpt_related h update _ ht.2
    have hb := h.slot (Stmt.remove_related h body _ hu.2)
    exact ⟨.inr (h.stmt rfl (h.append hh.1 (h.append ht.1 (h.append hu.1 hb.1)))), hb.2⟩
  | .forIn head source body =>
    have hh := ForHead.remove_related h head m hm
    have hs := Expr.remove_related h source _ hh.2
    have hb := h.slot (Stmt.remove_related h body _ hs.2)
    exact ⟨.inr (h.stmt rfl (h.append hh.1 (h.append hs.1 hb.1))), hb.2⟩
  | .forOf head source body _ =>
    have hh := ForHead.remove_related h head m hm
    have hs := Expr.remove_related h source _ hh.2
    have hb := h.slot (Stmt.remove_related h body _ hs.2)
    exact ⟨.inr (h.stmt rfl (h.append hh.1 (h.append hs.1 hb.1))), hb.2⟩
  | .switch subject cases =>
    have hs := Expr.remove_related h subject m hm
    have hc := Case.removeList_related h cases _ hs.2
    exact ⟨.inr (h.stmt rfl (h.append hs.1 hc.1)), hc.2⟩
  | .tryCatch body param handler finalizer =>
    have hb := Stmt.removeList_related h body m hm
    have hp := Pattern.removeOpt_related h .caught param _ hb.2
    have hh := Stmt.removeList_related h handler _ hp.2
    have hf := Stmt.removeOptList_related h finalizer _ hh.2
    exact ⟨.inr (h.stmt rfl (h.append hb.1 (h.append hp.1 (h.append hh.1 hf.1)))), hf.2⟩
  | .tryFinally body finalizer =>
    have hb := Stmt.removeList_related h body m hm
    have hf := Stmt.removeList_related h finalizer _ hb.2
    exact ⟨.inr (h.stmt rfl (h.append hb.1 hf.1)), hf.2⟩
  | .decl kind list =>
    have hl := Declarator.removeDecls_related h kind.bindingKind list m hm
    have he := allows_emptied hl.2 (Declarator.removeDecls r list m).1
    rw [Stmt.remove, run_bind]
    cases hc : r.dropsEmpty && (Declarator.removeDecls r list m).1.isEmpty with
    | false =>
      rw [hc] at he
      exact ⟨.inr (h.stmt rfl hl.1), he⟩
    | true =>
      rw [hc] at he
      exact ⟨.inr (h.stmt rfl hl.1), he⟩
  | .func f =>
    rw [Stmt.remove]
    split
    next hd =>
      refine ⟨.inl rfl, fun hr => ?_⟩
      rw [hr.func f] at hd
      cases hd
    next hd =>
      have hf := Func.remove_related h .func f m hm
      have hh := (f.remove_head r m).symm
      exact ⟨.inr (h.stmt (congrArg Stmt.func hh)
        (h.funcDecl (Bool.eq_false_iff.2 hd) hh hf.1)), hf.2⟩
  | .cls c =>
    rw [Stmt.remove]
    split
    next hd =>
      refine ⟨.inl rfl, fun hr => ?_⟩
      rw [hr.cls c] at hd
      cases hd
    next hd =>
      have hc := Class.remove_related h .cls c m hm
      have hh := (c.remove_head r m).symm
      exact ⟨.inr (h.stmt (congrArg Stmt.cls hh)
        (h.clsDecl (Bool.eq_false_iff.2 hd) hh hc.1)), hc.2⟩
  | .importDecl specs _ =>
    exact ⟨.inr (h.stmt rfl (h.all _ ImportSpec.binder specs)), allows_forM ImportSpec.binder specs hm⟩
  | .exportDecl decl =>
    have hd := h.slot (Stmt.remove_related h decl m hm)
    exact ⟨.inr (h.stmt rfl hd.1), hd.2⟩
  | .exportNames specs _ =>
    exact ⟨.inr (h.stmt rfl (h.all _ ExportSpec.source specs)), allows_forM ExportSpec.source specs hm⟩
  | .exportDefault decl =>
    have hd := h.slot (Stmt.remove_related h decl m hm)
    exact ⟨.inr (h.stmt rfl hd.1), hd.2⟩
  | .exportDefaultExpr e =>
    have he := Expr.remove_related h e m hm
    exact ⟨.inr (h.stmt rfl he.1), he.2⟩

theorem Stmt.removeOpt_related (h : Removes r F G R) (t : Option Stmt) (m : Bool) (hm : r.Allows m) :
    R (Stmt.foldOpt F t) (Stmt.foldOpt G (Stmt.removeOpt r t m).1) ∧
      r.Allows (Stmt.removeOpt r t m).2 := by
  match t with
  | none => exact ⟨h.empty, hm⟩
  | some t => exact h.slot (Stmt.remove_related h t m hm)

theorem Stmt.removeList_related (h : Removes r F G R) (ts : List Stmt) (m : Bool)
    (hm : r.Allows m) :
    R (Stmt.foldList F ts) (Stmt.foldList G (Stmt.removeList r ts m).1) ∧
      r.Allows (Stmt.removeList r ts m).2 := by
  match ts with
  | [] => exact ⟨h.empty, hm⟩
  | t :: ts =>
    have ht := Stmt.remove_related h t m hm
    have hts := Stmt.removeList_related h ts false allows_false
    refine ⟨?_, hts.2⟩
    cases hg : (t.remove r m).2 with
    | false =>
      have hl : (Stmt.removeList r (t :: ts) m).1 =
          (t.remove r m).1 :: (Stmt.removeList r ts false).1 := by
        simp only [Stmt.removeList, run_bind, run_pure, take, hg]
        rfl
      rw [hl]
      rcases ht.1 with hm' | ht'
      · rw [hg] at hm'
        cases hm'
      · exact h.append ht' hts.1
    | true =>
      have hl : (Stmt.removeList r (t :: ts) m).1 = (Stmt.removeList r ts false).1 := by
        simp only [Stmt.removeList, run_bind, run_pure, take, hg]
        rfl
      rw [hl, ← h.empty_left (Stmt.foldList G _)]
      exact h.append (h.gone (not_isUnmarked ht.2 hg) _) hts.1

theorem Stmt.removeOptList_related (h : Removes r F G R) (ts : Option (List Stmt)) (m : Bool)
    (hm : r.Allows m) :
    R (Stmt.foldOptList F ts) (Stmt.foldOptList G (Stmt.removeOptList r ts m).1) ∧
      r.Allows (Stmt.removeOptList r ts m).2 := by
  match ts with
  | none => exact ⟨h.empty, hm⟩
  | some ts => exact Stmt.removeList_related h ts m hm

theorem ForHead.remove_related (h : Removes r F G R) (head : ForHead) (m : Bool) (hm : r.Allows m) :
    R (head.fold F) ((head.remove r m).1.fold G) ∧ r.Allows (head.remove r m).2 := by
  match head with
  | .empty => exact ⟨h.empty, hm⟩
  | .decl kind list =>
    have hl := Declarator.removeDecls_related h kind.bindingKind list m hm
    have he := allows_emptied hl.2 (Declarator.removeDecls r list m).1
    rw [ForHead.remove, run_bind]
    cases hc : r.dropsEmpty && (Declarator.removeDecls r list m).1.isEmpty with
    | false =>
      rw [hc] at he
      exact ⟨hl.1, he⟩
    | true =>
      rw [hc] at he
      exact ⟨hl.1, he⟩
  | .expr e => exact Expr.remove_related h e m hm

theorem Case.remove_related (h : Removes r F G R) (c : Case) (m : Bool) (hm : r.Allows m) :
    R (c.fold F) ((c.remove r m).1.fold G) ∧ r.Allows (c.remove r m).2 := by
  match c with
  | .mk test body =>
    have ht := Expr.removeOpt_related h test m hm
    have hb := Stmt.removeList_related h body _ ht.2
    exact ⟨h.append ht.1 hb.1, hb.2⟩

theorem Case.removeList_related (h : Removes r F G R) (cs : List Case) (m : Bool)
    (hm : r.Allows m) :
    R (Case.foldList F cs) (Case.foldList G (Case.removeList r cs m).1) ∧
      r.Allows (Case.removeList r cs m).2 := by
  match cs with
  | [] => exact ⟨h.empty, hm⟩
  | c :: cs =>
    have hc := Case.remove_related h c m hm
    have hcs := Case.removeList_related h cs _ hc.2
    exact ⟨h.append hc.1 hcs.1, hcs.2⟩

end

theorem Program.remove_related (h : Removes r F G R) (p : Program) :
    R (p.fold F) ((p.remove r).fold G) :=
  (Stmt.removeList_related h p.body false allows_false).1

end Deadwood
