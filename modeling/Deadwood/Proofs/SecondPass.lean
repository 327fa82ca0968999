import Deadwood.Proofs.Repeats

/-!
# A pass over what a pass leaves

The two passes go through every piece of syntax side by side.
-/

namespace Deadwood

open Elimination

namespace Rerun

/-- The declarations of a piece of syntax are known by their sites. -/
def known (R : Rerun) : Fold Prop where
  empty := True
  append := And
  ident _ _ := True
  declarator d p :=
    (∀ site id init, d = .mk site (.ident id) init → R.base site = some (.variable init)) ∧ p
  funcDecl f p := (∀ id ∈ f.name, R.base id.site = some (.func f)) ∧ p
  clsDecl c p := (∀ id ∈ c.name, R.base id.site = some (.cls c)) ∧ p

end Rerun

variable {R : Rerun} {s s' : State}

theorem Expr.tidy_isIdent (f : Ident → Ident) (e : Expr) : (e.tidy f).isIdent = e.isIdent := by cases e <;> rfl

theorem Func.tidy_name (f : Ident → Ident) (fn : Func) : (fn.tidy f).name = fn.name.map f := by
  cases fn
  rfl

theorem Class.tidy_name (f : Ident → Ident) (c : Class) : (c.tidy f).name = c.name.map f := by
  cases c
  rfl

namespace Rerun

theorem normal_all {α : Type} (f : α → Ident) (role : Role) (cs : List α) :
    R.start.normal.all (fun c => R.start.normal.ident role (f c)) cs := by
  induction cs with
  | nil => trivial
  | cons c cs ih => exact ⟨trivial, ih⟩

namespace Repeats

theorem importDecl (specs : List ImportSpec) (source : StringLit) :
    Repeats R (Stmt.importDecl specs source).tidy (R.NormalParts ((Stmt.importDecl specs source).tidy R.stamp))
      (pure (.importDecl specs source)) (pure ((Stmt.importDecl specs source).tidy R.stamp)) where
  grows _ := Nat.le_refl _
  still hs _ := by
    have hid : (Stmt.importDecl specs source).tidy id = .importDecl specs source :=
      congrArg (Stmt.importDecl · source) (List.map_id' specs)
    exact ⟨hid.symm, rfl, fun _ => ⟨trivial, normal_all ImportSpec.binder _ _⟩, hs⟩

theorem exportNames (specs : List ExportSpec) (source : Option StringLit) :
    Repeats R (Stmt.exportNames specs source).tidy (R.NormalParts ((Stmt.exportNames specs source).tidy R.stamp))
      (pure (.exportNames specs source)) (pure ((Stmt.exportNames specs source).tidy R.stamp)) where
  grows _ := Nat.le_refl _
  still hs _ := by
    have hid : (Stmt.exportNames specs source).tidy id = .exportNames specs source := by
      cases source with
      | none => exact congrArg (Stmt.exportNames · none) (List.map_id' specs)
      | some source => rfl
    exact ⟨hid.symm, rfl, fun _ => ⟨trivial, normal_all ExportSpec.source _ _⟩, hs⟩

/-- A function that has been gone through is defined as it is left. -/
theorem funcDecl {f : Func} (hf : ∀ id ∈ f.name, R.base id.site = some (.func f))
    (h : Repeats R f.tidy
      ((f.tidy R.stamp).fold R.start.normal .func ∧ R.start.NormalList false (f.tidy R.stamp).body) f.eliminate
      (f.tidy R.stamp).eliminate) :
    Repeats R (Stmt.func f).tidy (R.NormalParts ((Stmt.func f).tidy R.stamp)) (Stmt.func f).eliminate
      ((Stmt.func f).tidy R.stamp).eliminate := by
  refine h.andThen (fun z s => Nat.le_of_eq (congrArg List.length (defineNamed_changes z.name (.func z) s).symm))
    fun {s s'} hs hN _ => ⟨rfl, rfl, fun _ => ⟨hN.2, hN.1⟩, ?_⟩
  have hd := hs.defineNamed hf
  show R.Still (defineNamed (f.tidy id).name (.func (f.tidy id)) s).2
    (defineNamed (f.tidy R.stamp).name (.func (f.tidy R.stamp)) s').2
  rw [Func.tidy_name, Func.tidy_name, Option.map_id]
  exact hd

/-- A class that has been gone through is defined as it is left. -/
theorem clsDecl {c : Class} (hc : ∀ id ∈ c.name, R.base id.site = some (.cls c))
    (h : Repeats R c.tidy ((c.tidy R.stamp).fold R.start.normal .cls ∧
      ∀ e ∈ (c.tidy R.stamp).body, R.start.NormalElement e) c.eliminate (c.tidy R.stamp).eliminate) :
    Repeats R (Stmt.cls c).tidy (R.NormalParts ((Stmt.cls c).tidy R.stamp)) (Stmt.cls c).eliminate
      ((Stmt.cls c).tidy R.stamp).eliminate := by
  refine h.andThen (fun z s => Nat.le_of_eq (congrArg List.length (defineNamed_changes z.name (.cls z) s).symm))
    fun {s s'} hs hN _ => ⟨rfl, rfl, fun _ => ⟨hN.2, hN.1⟩, ?_⟩
  have hd := hs.defineNamed hc
  show R.Still (defineNamed (c.tidy id).name (.cls (c.tidy id)) s).2
    (defineNamed (c.tidy R.stamp).name (.cls (c.tidy R.stamp)) s').2
  rw [Class.tidy_name, Class.tidy_name, Option.map_id]
  exact hd

/-- The names that a loop declares first are looked at once they have been gone through. -/
theorem loopHead (removes : Bool) {kind : DeclKind} {ds : List Declarator}
    (h : Repeats R (Declarator.tidyList · ds)
      (Declarator.foldList R.start.normal kind.bindingKind (Declarator.tidyList R.stamp ds))
      (Declarator.eliminateList ds) (Declarator.eliminateList (Declarator.tidyList R.stamp ds))) :
    Repeats R (ForHead.decl kind ds).tidy
      (((ForHead.decl kind ds).tidy R.stamp).fold R.start.normal ∧
        (removes = true → R.start.NormalHead ((ForHead.decl kind ds).tidy R.stamp)))
      ((ForHead.decl kind ds).eliminate removes) (((ForHead.decl kind ds).tidy R.stamp).eliminate removes) := by
  cases removes with
  | false => exact h.map (ForHead.decl kind) fun hN => ⟨hN, nofun⟩
  | true =>
    refine h.andThen (fun z s => (removeDeclarators_settles z s).changes) fun {s s'} hs hN hc => ?_
    rcases hs.clean.removeDeclarators (Declarator.tidyList id ds) with ⟨hr, c, he⟩ | ⟨-, hne⟩
    · have hr' := (hs.anyRemovesDeclarator ds).trans hr
      obtain ⟨c', he'⟩ : ∃ c', removeDeclarators (Declarator.tidyList R.stamp ds) s' = (_, s'.noting c') :=
        hs.removeDeclaration (t := .decl kind (Declarator.tidyList R.stamp ds)) hr'
      have hhead : R.start.NormalHead ((ForHead.decl kind ds).tidy R.stamp) := fun d hd =>
        Bool.eq_false_iff.2 (List.any_eq_false.1 hr' d hd)
      refine ⟨rfl, rfl, ⟨hN, fun _ => hhead⟩, ?_⟩
      show R.Still (removeDeclarators (Declarator.tidyList id ds) s).2
        (removeDeclarators (Declarator.tidyList R.stamp ds) s').2
      rw [he, he']
      exact hs.noting c c'
    · exact absurd hc hne

end Repeats

end Rerun

mutual

theorem Expr.repeats (role : OperandRole) (e : Expr) (h : e.fold R.known) :
    R.Repeats e.tidy ((e.tidy R.stamp).fold R.start.normal) (e.eliminate role)
      ((e.tidy R.stamp).eliminate role) := by
  match e with
  | .hole => exact .const Expr.hole ⟨trivial, trivial⟩
  | .this => exact .const Expr.this ⟨trivial, trivial⟩
  | .super => exact .const Expr.super ⟨trivial, trivial⟩
  | .null => exact .const Expr.null ⟨trivial, trivial⟩
  | .bool b => exact .const (Expr.bool b) ⟨trivial, trivial⟩
  | .number value raw => exact .const (Expr.number value raw) ⟨trivial, trivial⟩
  | .string lit => exact .const (Expr.string lit) ⟨trivial, trivial⟩
  | .regExp pattern flags => exact .const (Expr.regExp pattern flags) ⟨trivial, trivial⟩
  | .ident id => exact .ident role id
  | .template tag chunks es =>
    obtain ⟨ht, hes⟩ := h
    exact ((Expr.repeatsOpt .callee tag ht).pair (Expr.repeatsList es hes)).map
      (fun p => Expr.template p.1 chunks p.2) fun hN => ⟨trivial, hN⟩
  | .array es => exact (Expr.repeatsList es h).map Expr.array fun hN => ⟨trivial, hN⟩
  | .object ps => exact (Property.repeatsList ps h).map Expr.object fun hN => ⟨trivial, hN⟩
  | .spread e => exact (Expr.repeats .value e h).map Expr.spread fun hN => ⟨trivial, hN⟩
  | .func f => exact (Func.repeats .own f h).map Expr.func fun hN => ⟨hN.2, hN.1⟩
  | .arrow params rest body async =>
    obtain ⟨hp, hr, hb⟩ := h
    exact ((Declarator.repeatsElems .param params hp).pair
      ((Pattern.repeatsOpt .param rest hr).pair (Expr.repeats .value body hb))).map
      (fun p => Expr.arrow p.1 p.2.1 p.2.2 async) fun hN => ⟨trivial, hN⟩
  | .arrowBlock params rest body async =>
    obtain ⟨hp, hr, hb⟩ := h
    exact ((Declarator.repeatsElems .param params hp).pair
      ((Pattern.repeatsOpt .param rest hr).pair (Stmt.repeatsList false body hb))).map
      (fun p => Expr.arrowBlock p.1 p.2.1 p.2.2 async) fun hN => ⟨hN.2.2.2, hN.1, hN.2.1, hN.2.2.1⟩
  | .cls c => exact (Class.repeats .own c h).map Expr.cls fun hN => ⟨hN.2, hN.1⟩
  | .unary op e =>
    have hi := Expr.tidy_isIdent R.stamp e
    simp only [Expr.eliminate, Expr.tidy, hi]
    split
    next hop =>
      cases e with
      | ident id => exact .atom (fun f => Expr.unary op (.ident (f id))) ⟨trivial, trivial, trivial⟩
      | _ => exact absurd (Bool.and_eq_true_iff.1 hop).2 Bool.false_ne_true
    next => exact (Expr.repeats _ e h).map (Expr.unary op) fun hN => ⟨trivial, hN⟩
  | .update op e post => exact (Expr.repeats .value e h).map (Expr.update op · post) fun hN => ⟨trivial, hN⟩
  | .binary op l r =>
    obtain ⟨hl, hr⟩ := h
    exact ((Expr.repeats .value l hl).pair (Expr.repeats .value r hr)).map (fun p => Expr.binary op p.1 p.2)
      fun hN => ⟨trivial, hN⟩
  | .assign op l r =>
    obtain ⟨hl, hr⟩ := h
    exact ((Expr.repeats .value l hl).pair (Expr.repeats .value r hr)).map (fun p => Expr.assign op p.1 p.2)
      fun hN => ⟨trivial, hN⟩
  | .cond test yes no =>
    obtain ⟨ht, hy, hn⟩ := h
    exact .conditional role ((Expr.repeats .value test ht).pair
      ((Expr.repeats .value yes hy).pair (Expr.repeats .value no hn)))
  | .seq es => exact (Expr.repeatsList es h).map Expr.seq fun hN => ⟨trivial, hN⟩
  | .call callee args optional =>
    obtain ⟨hc, ha⟩ := h
    exact ((Expr.repeats .callee callee hc).pair (Expr.repeatsList args ha)).map
      (fun p => Expr.call p.1 p.2 optional) fun hN => ⟨trivial, hN⟩
  | .new callee args =>
    obtain ⟨hc, ha⟩ := h
    exact ((Expr.repeats .value callee hc).pair (Expr.repeatsList args ha)).map (fun p => Expr.new p.1 p.2)
      fun hN => ⟨trivial, hN⟩
  | .member object name optional =>
    obtain ⟨ho, -⟩ := h
    exact (Expr.repeats .value object ho).map (Expr.member · name optional) fun hN => ⟨trivial, hN, trivial⟩
  | .index object key optional =>
    obtain ⟨ho, hk⟩ := h
    exact ((Expr.repeats .value object ho).pair (Expr.repeats .value key hk)).map
      (fun p => Expr.index p.1 p.2 optional) fun hN => ⟨trivial, hN⟩
  | .await e => exact (Expr.repeats .value e h).map Expr.await fun hN => ⟨trivial, hN⟩
  | .yield arg delegate =>
    exact (Expr.repeatsOpt .value arg h).map (Expr.yield · delegate) fun hN => ⟨trivial, hN⟩

theorem Expr.repeatsOpt (role : OperandRole) (e : Option Expr) (h : Expr.foldOpt R.known e) :
    R.Repeats (Expr.tidyOpt · e) (Expr.foldOpt R.start.normal (Expr.tidyOpt R.stamp e))
      (Expr.eliminateOpt role e) (Expr.eliminateOpt role (Expr.tidyOpt R.stamp e)) := by
  match e with
  | none => exact .const none trivial
  | some e => exact (Expr.repeats role e h).map some fun hN => hN

theorem Expr.repeatsList (es : List Expr) (h : Expr.foldList R.known es) :
    R.Repeats (Expr.tidyList · es) (Expr.foldList R.start.normal (Expr.tidyList R.stamp es))
      (Expr.eliminateList es) (Expr.eliminateList (Expr.tidyList R.stamp es)) := by
  match es with
  | [] => exact .const [] trivial
  | e :: es =>
    obtain ⟨he, hes⟩ := h
    exact ((Expr.repeats .value e he).pair (Expr.repeatsList es hes)).map (fun p => p.1 :: p.2) fun hN => hN

theorem Property.repeats (p : Property) (h : p.fold R.known) :
    R.Repeats p.tidy ((p.tidy R.stamp).fold R.start.normal) p.eliminate (p.tidy R.stamp).eliminate := by
  match p with
  | .short id none => exact .shortProperty id
  | .short id (some init) =>
    obtain ⟨-, hi⟩ := h
    exact (Expr.repeats .value init hi).mapStamped (fun f e => Property.short (f id) (some e))
      fun hN => ⟨trivial, hN⟩
  | .keyed key kind value computed =>
    obtain ⟨hk, hv⟩ := h
    have hv := Expr.repeats .value value hv
    cases computed with
    | false => exact hv.map (Property.keyed key kind · false) fun hN => ⟨trivial, hN⟩
    | true =>
      exact ((Expr.repeats .value key hk).pair hv).map (fun p => Property.keyed p.1 kind p.2 true) fun hN => hN
  | .spread e => exact (Expr.repeats .value e h).map Property.spread fun hN => hN

theorem Property.repeatsList (ps : List Property) (h : Property.foldList R.known ps) :
    R.Repeats (Property.tidyList · ps) (Property.foldList R.start.normal (Property.tidyList R.stamp ps))
      (Property.eliminateList ps) (Property.eliminateList (Property.tidyList R.stamp ps)) := by
  match ps with
  | [] => exact .const [] trivial
  | p :: ps =>
    obtain ⟨hp, hps⟩ := h
    exact ((Property.repeats p hp).pair (Property.repeatsList ps hps)).map (fun p => p.1 :: p.2) fun hN => hN

theorem Func.repeats (kind : BindingKind) (f : Func) (h : f.fold R.known kind) :
    R.Repeats f.tidy ((f.tidy R.stamp).fold R.start.normal kind ∧ R.start.NormalList false (f.tidy R.stamp).body)
      f.eliminate (f.tidy R.stamp).eliminate := by
  match f with
  | .mk name params rest body async generator =>
    obtain ⟨-, hp, hr, hb⟩ := h
    have hp := (Declarator.repeatsElems .param params hp).pair
      ((Pattern.repeatsOpt .param rest hr).pair (Stmt.repeatsList false body hb))
    cases name with
    | none =>
      exact hp.map (fun p => Func.mk none p.1 p.2.1 p.2.2 async generator)
        fun hN => ⟨⟨trivial, hN.1, hN.2.1, hN.2.2.1⟩, hN.2.2.2⟩
    | some id =>
      exact hp.mapStamped (fun f p => Func.mk (some (f id)) p.1 p.2.1 p.2.2 async generator)
        fun hN => ⟨⟨trivial, hN.1, hN.2.1, hN.2.2.1⟩, hN.2.2.2⟩

theorem Class.repeats (kind : BindingKind) (c : Class) (h : c.fold R.known kind) :
    R.Repeats c.tidy
      ((c.tidy R.stamp).fold R.start.normal kind ∧ ∀ e ∈ (c.tidy R.stamp).body, R.start.NormalElement e)
      c.eliminate (c.tidy R.stamp).eliminate := by
  match c with
  | .mk name superclass body decorators =>
    obtain ⟨hd, -, hs, hb⟩ := h
    have hp := (Expr.repeatsList decorators hd).pair
      ((Expr.repeatsOpt .value superclass hs).pair (ClassElement.repeatsList body hb))
    cases name with
    | none =>
      exact hp.map (fun p => Class.mk none p.2.1 p.2.2 p.1)
        fun hN => ⟨⟨hN.1, trivial, hN.2.1, hN.2.2.1⟩, hN.2.2.2⟩
    | some id =>
      exact hp.mapStamped (fun f p => Class.mk (some (f id)) p.2.1 p.2.2 p.1)
        fun hN => ⟨⟨hN.1, trivial, hN.2.1, hN.2.2.1⟩, hN.2.2.2⟩

theorem ClassElement.repeats (e : ClassElement) (h : e.fold R.known) :
    R.Repeats e.tidy ((e.tidy R.stamp).fold R.start.normal ∧ R.start.NormalElement (e.tidy R.stamp)) e.eliminate
      (e.tidy R.stamp).eliminate := by
  match e with
  | .field key init computed isStatic =>
    obtain ⟨hk, hi⟩ := h
    have hi := Expr.repeatsOpt .value init hi
    cases computed with
    | false => exact hi.map (ClassElement.field key · false isStatic) fun hN => ⟨⟨trivial, hN⟩, trivial⟩
    | true =>
      exact ((Expr.repeats .value key hk).pair hi).map (fun p => ClassElement.field p.1 p.2 true isStatic)
        fun hN => ⟨hN, trivial⟩
  | .method key kind body computed isStatic =>
    obtain ⟨hk, hb⟩ := h
    have hb := Func.repeats .own body hb
    cases computed with
    | false => exact hb.map (ClassElement.method key kind · false isStatic) fun hN => ⟨⟨trivial, hN.1⟩, hN.2⟩
    | true =>
      exact ((Expr.repeats .value key hk).pair hb).map (fun p => ClassElement.method p.1 kind p.2 true isStatic)
        fun hN => ⟨⟨hN.1, hN.2.1⟩, hN.2.2⟩
  | .block body => exact (Stmt.repeatsList false body h).map ClassElement.block fun hN => hN

theorem ClassElement.repeatsList (es : List ClassElement) (h : ClassElement.foldList R.known es) :
    R.Repeats (ClassElement.tidyList · es)
      (ClassElement.foldList R.start.normal (ClassElement.tidyList R.stamp es) ∧
        ∀ e ∈ ClassElement.tidyList R.stamp es, R.start.NormalElement e)
      (ClassElement.eliminateList es) (ClassElement.eliminateList (ClassElement.tidyList R.stamp es)) := by
  match es with
  | [] => exact .const [] ⟨trivial, nofun⟩
  | e :: es =>
    obtain ⟨he, hes⟩ := h
    exact ((ClassElement.repeats e he).pair (ClassElement.repeatsList es hes)).map (fun p => p.1 :: p.2)
      fun hN => ⟨⟨hN.1.1, hN.2.1⟩, List.forall_mem_cons.2 ⟨hN.1.2, hN.2.2⟩⟩

theorem Pattern.repeats (kind : BindingKind) (p : Pattern) (h : p.fold R.known kind) :
    R.Repeats p.tidy ((p.tidy R.stamp).fold R.start.normal kind) p.eliminate (p.tidy R.stamp).eliminate := by
  match p with
  | .hole => exact .const Pattern.hole trivial
  | .ident id => exact .atom (fun f => Pattern.ident (f id)) trivial
  | .array elems rest =>
    obtain ⟨he, hr⟩ := h
    exact ((Declarator.repeatsElems kind elems he).pair (Pattern.repeatsOpt kind rest hr)).map
      (fun p => Pattern.array p.1 p.2) fun hN => hN
  | .object props rest =>
    obtain ⟨hp, hr⟩ := h
    exact ((PatternProp.repeatsList kind props hp).pair (Pattern.repeatsOpt kind rest hr)).map
      (fun p => Pattern.object p.1 p.2) fun hN => hN

theorem Pattern.repeatsOpt (kind : BindingKind) (p : Option Pattern) (h : Pattern.foldOpt R.known kind p) :
    R.Repeats (Pattern.tidyOpt · p) (Pattern.foldOpt R.start.normal kind (Pattern.tidyOpt R.stamp p))
      (Pattern.eliminateOpt p) (Pattern.eliminateOpt (Pattern.tidyOpt R.stamp p)) := by
  match p with
  | none => exact .const none trivial
  | some p => exact (Pattern.repeats kind p h).map some fun hN => hN

theorem Declarator.repeats (kind : BindingKind) (d : Declarator) (h : d.fold R.known kind) :
    R.Repeats d.tidy ((d.tidy R.stamp).fold R.start.normal kind) d.eliminate (d.tidy R.stamp).eliminate := by
  match d with
  | .mk site target init =>
    obtain ⟨hd, ht, hi⟩ := h
    exact .declarator (fun id hid => hd site id init (by rw [hid])) (Pattern.repeats kind target ht)
      (Expr.repeatsOpt .value init hi)

theorem Declarator.repeatsList (kind : BindingKind) (ds : List Declarator)
    (h : Declarator.foldList R.known kind ds) :
    R.Repeats (Declarator.tidyList · ds)
      (Declarator.foldList R.start.normal kind (Declarator.tidyList R.stamp ds)) (Declarator.eliminateList ds)
      (Declarator.eliminateList (Declarator.tidyList R.stamp ds)) := by
  match ds with
  | [] => exact .const [] trivial
  | d :: ds =>
    obtain ⟨hd, hds⟩ := h
    exact ((Declarator.repeats kind d hd).pair (Declarator.repeatsList kind ds hds)).map (fun p => p.1 :: p.2)
      fun hN => hN

theorem Declarator.repeatsElem (kind : BindingKind) (d : Declarator) (h : d.foldElem R.known kind) :
    R.Repeats d.tidy ((d.tidy R.stamp).foldElem R.start.normal kind) d.eliminate (d.tidy R.stamp).eliminate := by
  match d with
  | .mk site target init =>
    obtain ⟨hd, ht, hi⟩ := h
    exact .declarator (fun id hid => hd site id init (by rw [hid])) (Pattern.repeats kind target ht)
      (Expr.repeatsOpt .value init hi)

theorem Declarator.repeatsElems (kind : BindingKind) (ds : List Declarator)
    (h : Declarator.foldElems R.known kind ds) :
    R.Repeats (Declarator.tidyList · ds)
      (Declarator.foldElems R.start.normal kind (Declarator.tidyList R.stamp ds)) (Declarator.eliminateList ds)
      (Declarator.eliminateList (Declarator.tidyList R.stamp ds)) := by
  match ds with
  | [] => exact .const [] trivial
  | d :: ds =>
    obtain ⟨hd, hds⟩ := h
    exact ((Declarator.repeatsElem kind d hd).pair (Declarator.repeatsElems kind ds hds)).map
      (fun p => p.1 :: p.2) fun hN => hN

theorem PatternProp.repeats (kind : BindingKind) (p : PatternProp) (h : p.fold R.known kind) :
    R.Repeats p.tidy ((p.tidy R.stamp).fold R.start.normal kind) p.eliminate (p.tidy R.stamp).eliminate := by
  match p with
  | .mk key computed shorthand value =>
    obtain ⟨hk, hv⟩ := h
    have hv := Declarator.repeatsElem kind value hv
    cases computed with
    | false => exact hv.map (PatternProp.mk key false shorthand ·) fun hN => ⟨trivial, hN⟩
    | true =>
      exact ((Expr.repeats .value key hk).pair hv).map (fun p => PatternProp.mk p.1 true shorthand p.2) fun hN => hN

theorem PatternProp.repeatsList (kind : BindingKind) (ps : List PatternProp)
    (h : PatternProp.foldList R.known kind ps) :
    R.Repeats (PatternProp.tidyList · ps)
      (PatternProp.foldList R.start.normal kind (PatternProp.tidyList R.stamp ps)) (PatternProp.eliminateList ps)
      (PatternProp.eliminateList (PatternProp.tidyList R.stamp ps)) := by
  match ps with
  | [] => exact .const [] trivial
  | p :: ps =>
    obtain ⟨hp, hps⟩ := h
    exact ((PatternProp.repeats kind p hp).pair (PatternProp.repeatsList kind ps hps)).map
      (fun p => p.1 :: p.2) fun hN => hN

theorem Stmt.repeats (t : Stmt) (h : t.fold R.known) :
    R.Repeats t.tidy (R.NormalParts (t.tidy R.stamp)) t.eliminate (t.tidy R.stamp).eliminate := by
  match t with
  | .empty => exact .const Stmt.empty fun _ => ⟨trivial, trivial⟩
  | .debugger => exact .const Stmt.debugger fun _ => ⟨trivial, trivial⟩
  | .exportAll name source => exact .const (Stmt.exportAll name source) fun _ => ⟨trivial, trivial⟩
  | .brk label => exact .const (Stmt.brk label) fun _ => ⟨trivial, by cases label <;> trivial⟩
  | .cont label => exact .const (Stmt.cont label) fun _ => ⟨trivial, by cases label <;> trivial⟩
  | .importDecl specs source => exact .importDecl specs source
  | .exportNames specs source => exact .exportNames specs source
  | .block body => exact (Stmt.repeatsList false body h).map Stmt.block fun hN _ => ⟨hN.2, hN.1⟩
  | .expr e => exact (Expr.repeats .value e h).map Stmt.expr fun hN _ => ⟨trivial, hN⟩
  | .cond test yes no =>
    obtain ⟨ht, hy, hn⟩ := h
    exact ((Expr.repeats .value test ht).pair ((Stmt.repeats yes hy).slot.pair (Stmt.repeatsOpt no hn))).map
      (fun p => Stmt.cond p.1 p.2.1 p.2.2) fun hN hc => ⟨hc rfl, hN⟩
  | .ret arg => exact (Expr.repeatsOpt .value arg h).map Stmt.ret fun hN _ => ⟨trivial, hN⟩
  | .throw arg => exact (Expr.repeats .value arg h).map Stmt.throw fun hN _ => ⟨trivial, hN⟩
  | .labelled label body =>
    obtain ⟨-, hb⟩ := h
    exact (Stmt.repeats body hb).slot.map (Stmt.labelled label) fun hN _ => ⟨trivial, trivial, hN⟩
  | .while test body =>
    obtain ⟨ht, hb⟩ := h
    exact ((Expr.repeats .value test ht).pair (Stmt.repeats body hb).slot).map (fun p => Stmt.while p.1 p.2)
      fun hN _ => ⟨trivial, hN⟩
  | .doWhile body test =>
    obtain ⟨hb, ht⟩ := h
    exact ((Stmt.repeats body hb).slot.pair (Expr.repeats .value test ht)).map (fun p => Stmt.doWhile p.1 p.2)
      fun hN _ => ⟨trivial, hN⟩
  | .for head test update body =>
    obtain ⟨hh, ht, hu, hb⟩ := h
    exact ((ForHead.repeats true head hh).pair ((Expr.repeatsOpt .value test ht).pair
      ((Expr.repeatsOpt .value update hu).pair (Stmt.repeats body hb).slot))).map
      (fun p => Stmt.for p.1 p.2.1 p.2.2.1 p.2.2.2) fun hN _ => ⟨hN.1.2 rfl, hN.1.1, hN.2⟩
  | .forIn head source body =>
    obtain ⟨hh, hs, hb⟩ := h
    exact ((ForHead.repeats false head hh).pair ((Expr.repeats .value source hs).pair
      (Stmt.repeats body hb).slot)).map (fun p => Stmt.forIn p.1 p.2.1 p.2.2) fun hN _ => ⟨trivial, hN.1.1, hN.2⟩
  | .forOf head source body await =>
    obtain ⟨hh, hs, hb⟩ := h
    exact ((ForHead.repeats false head hh).pair ((Expr.repeats .value source hs).pair
      (Stmt.repeats body hb).slot)).map (fun p => Stmt.forOf p.1 p.2.1 p.2.2 await)
      fun hN _ => ⟨trivial, hN.1.1, hN.2⟩
  | .switch subject cases =>
    obtain ⟨hs, hc⟩ := h
    exact ((Expr.repeats .value subject hs).pair (Case.repeatsList cases hc)).map (fun p => Stmt.switch p.1 p.2)
      fun hN _ => ⟨hN.2.2, hN.1, hN.2.1⟩
  | .tryCatch body param handler finalizer =>
    obtain ⟨hb, hp, hh, hf⟩ := h
    exact ((Stmt.repeatsList false body hb).pair ((Pattern.repeatsOpt .caught param hp).pair
      ((Stmt.repeatsList false handler hh).pair (Stmt.repeatsBlock finalizer hf)))).map
      (fun p => Stmt.tryCatch p.1 p.2.1 p.2.2.1 p.2.2.2)
      fun hN _ => ⟨⟨hN.1.2, hN.2.2.1.2, hN.2.2.2.2⟩, hN.1.1, hN.2.1, hN.2.2.1.1, hN.2.2.2.1⟩
  | .tryFinally body finalizer =>
    obtain ⟨hb, hf⟩ := h
    exact ((Stmt.repeatsList false body hb).pair (Stmt.repeatsList false finalizer hf)).map
      (fun p => Stmt.tryFinally p.1 p.2) fun hN _ => ⟨⟨hN.1.2, hN.2.2⟩, hN.1.1, hN.2.1⟩
  | .decl kind ds => exact (Declarator.repeatsList _ ds h).map (Stmt.decl kind) fun hN _ => ⟨trivial, hN⟩
  | .func f => exact .funcDecl h.1 (Func.repeats .func f h.2)
  | .cls c => exact .clsDecl h.1 (Class.repeats .cls c h.2)
  | .exportDecl decl => exact (Stmt.repeats decl h).slot.map Stmt.exportDecl fun hN _ => ⟨trivial, hN⟩
  | .exportDefault decl => exact (Stmt.repeats decl h).slot.map Stmt.exportDefault fun hN _ => ⟨trivial, hN⟩
  | .exportDefaultExpr e => exact (Expr.repeats .value e h).map Stmt.exportDefaultExpr fun hN _ => ⟨trivial, hN⟩

theorem Stmt.repeatsOpt (t : Option Stmt) (h : Stmt.foldOpt R.known t) :
    R.Repeats (Stmt.tidyOpt · t) (Stmt.foldOpt R.start.normal (Stmt.tidyOpt R.stamp t)) (Stmt.eliminateOpt t)
      (Stmt.eliminateOpt (Stmt.tidyOpt R.stamp t)) := by
  match t with
  | none => exact .const none trivial
  | some t => exact (Stmt.repeats t h).slot.map some fun hN => hN

theorem Stmt.repeatsList (past : Bool) (ts : List Stmt) (h : Stmt.foldList R.known ts) :
    R.Repeats (Stmt.tidyList · ts)
      (Stmt.foldList R.start.normal (Stmt.tidyList R.stamp ts) ∧ R.start.NormalList past (Stmt.tidyList R.stamp ts))
      (Stmt.eliminateList past ts) (Stmt.eliminateList past (Stmt.tidyList R.stamp ts)) := by
  match ts with
  | [] => exact .const [] ⟨trivial, trivial⟩
  | t :: ts =>
    obtain ⟨ht, hts⟩ := h
    exact .cons past (Stmt.repeats t ht) fun past => Stmt.repeatsList past ts hts

theorem Stmt.repeatsBlock (ts : Option (List Stmt)) (h : Stmt.foldOptList R.known ts) :
    R.Repeats (Stmt.tidyBlock · ts)
      (Stmt.foldOptList R.start.normal (Stmt.tidyBlock R.stamp ts) ∧
        ∀ body ∈ Stmt.tidyBlock R.stamp ts, R.start.NormalList false body)
      (Stmt.eliminateBlock ts) (Stmt.eliminateBlock (Stmt.tidyBlock R.stamp ts)) := by
  match ts with
  | none => exact .const none ⟨trivial, nofun⟩
  | some ts =>
    exact (Stmt.repeatsList false ts h).map some fun hN => ⟨hN.1, fun _ hts => Option.some.inj hts ▸ hN.2⟩

theorem ForHead.repeats (removes : Bool) (head : ForHead) (h : head.fold R.known) :
    R.Repeats head.tidy
      ((head.tidy R.stamp).fold R.start.normal ∧ (removes = true → R.start.NormalHead (head.tidy R.stamp)))
      (head.eliminate removes) ((head.tidy R.stamp).eliminate removes) := by
  match head with
  | .empty => exact .const ForHead.empty ⟨trivial, fun _ => trivial⟩
  | .decl kind ds => exact .loopHead removes (Declarator.repeatsList _ ds h)
  | .expr e => exact (Expr.repeats .value e h).map ForHead.expr fun hN => ⟨hN, fun _ => trivial⟩

theorem Case.repeats (c : Case) (h : c.fold R.known) :
    R.Repeats c.tidy ((c.tidy R.stamp).fold R.start.normal ∧ R.start.NormalList false (c.tidy R.stamp).body)
      c.eliminate (c.tidy R.stamp).eliminate := by
  match c with
  | .mk test body =>
    obtain ⟨ht, hb⟩ := h
    exact ((Expr.repeatsOpt .value test ht).pair (Stmt.repeatsList false body hb)).map (fun p => Case.mk p.1 p.2)
      fun hN => ⟨⟨hN.1, hN.2.1⟩, hN.2.2⟩

theorem Case.repeatsList (cs : List Case) (h : Case.foldList R.known cs) :
    R.Repeats (Case.tidyList · cs)
      (Case.foldList R.start.normal (Case.tidyList R.stamp cs) ∧
        ∀ c ∈ Case.tidyList R.stamp cs, R.start.NormalList false c.body)
      (Case.eliminateList cs) (Case.eliminateList (Case.tidyList R.stamp cs)) := by
  match cs with
  | [] => exact .const [] ⟨trivial, nofun⟩
  | c :: cs =>
    obtain ⟨hc, hcs⟩ := h
    exact ((Case.repeats c hc).pair (Case.repeatsList cs hcs)).map (fun p => p.1 :: p.2)
      fun hN => ⟨⟨hN.1.1, hN.2.1⟩, List.forall_mem_cons.2 ⟨hN.1.2, hN.2.2⟩⟩

end

end Deadwood
