import Deadwood.Proofs.Composition
import Deadwood.Proofs.Hereditary
import Deadwood.Proofs.Idempotence

/-!
# Properties of what is moved

Some hereditary properties do not depend on where an expression, function or class stands: its inside is judged
by itself.  So a pass may move values, and hands the property on as long as it knows it of the definitions that
it moves.
-/

namespace Deadwood

open Elimination

variable {γ : Type}

theorem Property.Becomes.refl (p : Property) : p.Becomes p := by
  cases p with
  | short => exact .short rfl
  | keyed key kind value computed => exact .keyed kind computed fun f hf => ⟨f, hf⟩
  | spread => exact .spread

/-- Two ways to judge a piece by its parts ask the same of the piece itself, and judge its parts in the same
context. -/
def Judges (f g : (γ → Prop) → γ → Prop) : Prop :=
  ∀ c, ∃ (H : Prop) (d : γ), ∀ P, (f P c ↔ H ∧ P d) ∧ (g P c ↔ H ∧ P d)

section

variable {f g : (γ → Prop) → γ → Prop} {P Q : γ → Prop} {J : State → Prop} {s t : State}

theorem Judges.refl : Judges (γ := γ) (fun P => P) fun P => P :=
  fun c => ⟨True, c, fun _ => ⟨(and_iff_right trivial).symm, (and_iff_right trivial).symm⟩⟩

theorem Judges.imp (h : Judges f g) (hPQ : ∀ c, P c → Q c) (c : γ) (hP : f P c) : g Q c := by
  obtain ⟨H, d, hd⟩ := h c
  exact (hd Q).2.2 (((hd P).1.1 hP).imp id (hPQ d))

theorem Judges.hands (h : Judges f g) (hPQ : Fold.Hands J P s Q t) : Fold.Hands J (f P) s (g Q) t := by
  intro c hs hP
  obtain ⟨H, d, hd⟩ := h c
  obtain ⟨hH, hP⟩ := (hd P).1.1 hP
  obtain ⟨hQ, ht⟩ := hPQ d hs hP
  exact ⟨(hd Q).2.2 ⟨hH, hQ⟩, ht⟩

end

/-- What is inside of expressions, functions and classes is judged in the context `body`, wherever they stand. -/
structure Fold.Portable (F : Fold (γ → Prop)) (branch : γ → γ) (body : γ) : Prop extends F.Hereditary branch where
  binding : ∀ kind kind' id, F.ident (.binding kind) id = F.ident (.binding kind') id
  expr : ∀ {e P c}, F.expr e P c ↔ P body
  stmt : ∀ {x x'}, x.head = x'.head → Judges (F.stmt x) (F.stmt x')
  property : ∀ {p p'}, p.Becomes p' → Judges (F.property p) (F.property p')
  declarator : ∀ {site target target' init init'}, target.head = target'.head →
    Judges (F.declarator (.mk site target init)) (F.declarator (.mk site target' init'))
  element : ∀ {site target target' init init'}, target.head = target'.head →
    Judges (F.element (.mk site target init)) (F.element (.mk site target' init'))
  funcDecl : ∀ f f' c, ∃ H : Prop, ∀ P, (F.funcDecl f P c ↔ H ∧ P body) ∧ (F.funcDecl f' P c ↔ H ∧ P body)
  clsDecl : ∀ k k' c, ∃ H : Prop, ∀ P, (F.clsDecl k P c ↔ H ∧ P body) ∧ (F.clsDecl k' P c ↔ H ∧ P body)

/-- A definition is as it has to be. -/
def Elimination.Definition.Obeys (F : Fold (γ → Prop)) (body : γ) : Definition → Prop
  | .variable init => Expr.foldOpt F init body
  | .func f => f.fold F .own body
  | .cls k => k.fold F .own body

/-- So is every definition that the pass knows. -/
structure Elimination.State.Obeys (F : Fold (γ → Prop)) (body : γ) (s : State) : Prop where
  definitions : ∀ {site d}, s.definition? site = some d → d.Obeys F body
  late : ∀ {site d}, s.late.lookup site = some d → d.Obeys F body

namespace Elimination.State.Obeys

variable {F : Fold (γ → Prop)} {body : γ} {s t : State}

theorem congr (hs : s.Obeys F body) (hd : t.definitions = s.definitions) (hl : t.late = s.late) : t.Obeys F body where
  definitions {site _} h := by
    have h : t.definitions[site]?.join = some _ := h
    rw [hd] at h
    exact hs.definitions h
  late h := by
    rw [hl] at h
    exact hs.late h

theorem settles (hs : s.Obeys F body) (h : s.Settles t) : t.Obeys F body := hs.congr h.definitions h.late

theorem define (hs : s.Obeys F body) (site : Site) {d : Definition} (hd : d.Obeys F body) :
    (define site d s).2.Obeys F body where
  definitions {site' d'} h := by
    have h : (s.definitions.setIfInBounds site (some d))[site']?.join = some d' := h
    rw [Array.getElem?_setIfInBounds] at h
    split at h
    · split at h
      · cases h
        exact hd
      · cases h
    · exact hs.definitions h
  late := hs.late

theorem defineNamed (hs : s.Obeys F body) (name : Option Ident) {d : Definition} (hd : d.Obeys F body) :
    (defineNamed name d s).2.Obeys F body := by
  cases name with
  | none => exact hs
  | some id =>
    have hdef := hs.define id.site hd
    show State.Obeys F body (if _ then _ else _)
    split
    · refine ⟨hdef.definitions, fun {site d'} h => ?_⟩
      have h : ((id.site, d) :: s.late).lookup site = some d' := h
      rw [List.lookup_cons] at h
      split at h
      · cases h
        exact hd
      · exact hs.late h
    · exact hdef

theorem defineVariable (hs : s.Obeys F body) {site : Site} {target : Pattern} {init : Option Expr}
    (hi : Expr.foldOpt F init body) : (defineVariable (.mk site target init) s).2.Obeys F body := by
  cases target with
  | ident id => exact hs.define site hi
  | _ => exact hs

end Elimination.State.Obeys

namespace Fold.Portable

variable {F : Fold (γ → Prop)} {branch : γ → γ} {body c d : γ} {s : State}

/-- Where an expression stands does not matter. -/
theorem expr_iff (h : F.Portable branch body) (e : Expr) : e.fold F c ↔ e.fold F d := by
  cases e <;> exact h.expr.trans h.expr.symm

theorem exprOpt_iff (h : F.Portable branch body) (e : Option Expr) : Expr.foldOpt F e c ↔ Expr.foldOpt F e d := by
  cases e with
  | none => exact iff_of_true (h.empty c) (h.empty d)
  | some e => exact h.expr_iff e

theorem func_own (h : F.Portable branch body) (f : Func) (kind : BindingKind) : f.fold F kind c ↔ f.fold F .own c := by
  cases f with
  | mk name => cases name <;> simp only [Func.fold, Fold.optIdent, h.binding kind .own]

theorem class_own (h : F.Portable branch body) (k : Class) (kind : BindingKind) :
    k.fold F kind c ↔ k.fold F .own c := by
  cases k with
  | mk name => cases name <;> simp only [Class.fold, Fold.optIdent, h.binding kind .own]

theorem func_iff (h : F.Portable branch body) (f : Func) : (Expr.func f).fold F c ↔ f.fold F .own body := h.expr

theorem class_iff (h : F.Portable branch body) (k : Class) : (Expr.cls k).fold F c ↔ k.fold F .own body := h.expr

/-! ### Removals -/

/-- A removal takes out what it likes, as long as what it puts in place of functions and classes is as it has to
be. -/
theorem removes (h : F.Portable branch body) {r : Removal} (hf : ∀ {f g}, r.otherFunc f = some g → g.fold F .own body)
    (hc : ∀ {k k'}, r.otherClass k = some k' → k'.fold F .own body) :
    Removes r F F fun P Q => ∀ c, P c → Q c where
  empty_left := h.lawful.empty_left
  empty _ he := he
  append hP hQ c hPQ := h.append.2 ((h.append.1 hPQ).imp (hP c) (hQ c))
  ident _ _ _ hP := hP
  hole _ hP := hP
  expr _ _ _ hP c he := h.expr.2 (hP body (h.expr.1 he))
  stmt hx hP := (h.stmt hx).imp hP
  property hp hP := (h.property hp).imp hP
  declarator _ hh _ _ hP := (h.declarator hh).imp hP
  element hh _ _ hP := (h.element hh).imp hP
  funcDecl {f f' _ _} _ _ hP c hf := by
    obtain ⟨H, hH⟩ := h.funcDecl f f' c
    exact (hH _).2.2 (((hH _).1.1 hf).imp id (hP body))
  clsDecl {k k' _ _} _ _ hP c hk := by
    obtain ⟨H, hH⟩ := h.clsDecl k k' c
    exact (hH _).2.2 (((hH _).1.1 hk).imp id (hP body))
  otherFunc hg c _ := (h.func_iff _).2 (hf hg)
  otherClass hk c _ := (h.class_iff _).2 (hc hk)
  dropped _ _ _ c _ := h.empty c
  gone _ _ c _ := h.empty c
  emptied _ _ c _ := h.nothing c

theorem renewal (h : F.Portable branch body) (hs : s.Obeys F body) :
    Removes s.renewal F F fun P Q => ∀ c, P c → Q c := by
  refine h.removes (fun {f g} hg => ?_) fun {k k'} hk => ?_
  · obtain ⟨id, -, hg⟩ := Option.bind_eq_some_iff.1 hg
    obtain ⟨d, hd, hg⟩ := Option.bind_eq_some_iff.1 hg
    cases d with
    | func g' => cases hg; exact hs.late hd
    | _ => cases hg
  · obtain ⟨id, -, hk⟩ := Option.bind_eq_some_iff.1 hk
    obtain ⟨d, hd, hk⟩ := Option.bind_eq_some_iff.1 hk
    cases d with
    | cls k' => cases hk; exact hs.late hd
    | _ => cases hk

/-! ### Rules -/

/-- What is inlined is a definition. -/
theorem inline (h : F.Portable branch body) (hs : s.Obeys F body) (id : Ident) (c : γ) :
    (∀ e ∈ (inline id s).1, e.fold F c) ∧ (inline id s).2.Obeys F body := by
  obtain ⟨_, -, he | ⟨i, b, value, hi, he⟩⟩ := State.inline_cases id s
  · rw [he]
    exact ⟨nofun, hs.congr rfl rfl⟩
  · rw [he]
    refine ⟨?_, hs.congr rfl rfl⟩
    rintro _ ⟨⟩
    obtain ⟨σ, d, e, -, hd, he, rfl⟩ := State.valueOf?_spec hi.valueOf
    have hd := hs.definitions hd
    refine State.renewExpr_fold (h.renewal hs) ?_
    match d with
    | .variable init =>
      subst he
      exact (h.expr_iff e).1 hd
    | .func f => cases he; exact (h.func_iff f).2 hd
    | .cls k => cases he; exact (h.class_iff k).2 hd

theorem trimDeclarator (h : F.Portable branch body) (hs : s.Obeys F body) (kind : DeclKind) (d : Declarator) :
    (trimDeclarator kind d s).2.Obeys F body := by
  rcases Ledger.trimDeclarator_cases kind d s with he | ⟨-, -, hset, -⟩ | ⟨_, _, _, v, -, -, -, hset, -, -, -, he⟩
  · rw [he]
    exact hs
  · exact hs.settles hset
  · rw [he]
    exact ((hs.settles hset).define _ (d := .variable none) (h.empty body)).congr rfl rfl

/-- Every rule hands the property on, and knows it of the definitions. -/
theorem inherited (h : F.Portable branch body) : F.Inherited branch (State.Obeys F body) where
  toHereditary := h.toHereditary
  settles hs ht := hs.settles ht
  listed _ hs := hs.congr rfl rfl
  renewal hs := h.renewal hs
  inlines id c hs _ := h.inline hs id c
  trims kind d hs := h.trimDeclarator hs kind d
  expr _ hPQ c hs hP := by
    obtain ⟨hQ, ht⟩ := hPQ body hs (h.expr.1 hP)
    exact ⟨h.expr.2 hQ, ht⟩
  stmt hx hPQ := (h.stmt hx).hands hPQ
  property hp hPQ := (h.property hp).hands hPQ
  declarator kind site target target' init init' s t u hh ht hi := by
    have hands : Fold.Hands (State.Obeys F body) (F.append (target.fold F kind) (Expr.foldOpt F init)) s
        (F.append (target'.fold F kind) (Expr.foldOpt F init'))
        (Elimination.defineVariable (.mk site target' init') u).2 := by
      intro c hs hP
      obtain ⟨hP, hI⟩ := h.append.1 hP
      obtain ⟨hQ, hv⟩ := ht c hs hP
      obtain ⟨hI, hu⟩ := hi c hv hI
      exact ⟨h.append.2 ⟨hQ, hI⟩, hu.defineVariable ((h.exprOpt_iff _).1 hI)⟩
    exact (h.declarator hh).hands hands
  element kind site target target' init init' s t u hh ht hi := by
    have hands : Fold.Hands (State.Obeys F body) (F.append (target.fold F kind) (Expr.foldOpt F init)) s
        (F.append (target'.fold F kind) (Expr.foldOpt F init'))
        (Elimination.defineVariable (.mk site target' init') u).2 := by
      intro c hs hP
      obtain ⟨hP, hI⟩ := h.append.1 hP
      obtain ⟨hQ, hv⟩ := ht c hs hP
      obtain ⟨hI, hu⟩ := hi c hv hI
      exact ⟨h.append.2 ⟨hQ, hI⟩, hu.defineVariable ((h.exprOpt_iff _).1 hI)⟩
    exact (h.element hh).hands hands
  funcDecl {f f' s t} hf hPQ := by
    have hstmt : Judges (F.stmt (.func f)) (F.stmt (.func f')) := h.stmt (congrArg Stmt.func hf)
    refine hstmt.hands (P := F.funcDecl f (f.fold F .func))
      (Q := F.funcDecl f' (f'.fold F .func)) fun c hs hP => ?_
    obtain ⟨H, hH⟩ := h.funcDecl f f' c
    obtain ⟨hc, hP⟩ := (hH _).1.1 hP
    obtain ⟨hQ, ht⟩ := hPQ body hs hP
    exact ⟨(hH _).2.2 ⟨hc, hQ⟩, ht.defineNamed f'.name (d := .func f') ((h.func_own f' .func).1 hQ)⟩
  clsDecl {k k' s t} hk hPQ := by
    have hstmt : Judges (F.stmt (.cls k)) (F.stmt (.cls k')) := h.stmt (congrArg Stmt.cls hk)
    refine hstmt.hands (P := F.clsDecl k (k.fold F .cls))
      (Q := F.clsDecl k' (k'.fold F .cls)) fun c hs hP => ?_
    obtain ⟨H, hH⟩ := h.clsDecl k k' c
    obtain ⟨hc, hP⟩ := (hH _).1.1 hP
    obtain ⟨hQ, ht⟩ := hPQ body hs hP
    exact ⟨(hH _).2.2 ⟨hc, hQ⟩, ht.defineNamed k'.name (d := .cls k') ((h.class_own k' .cls).1 hQ)⟩

/-! ### Passes -/

/-- A name is defined by its initializer. -/
theorem definition (h : F.Portable branch body) {site : Site} {init : Option Expr} {ds : List (Site × Definition)}
    (target : Pattern) (hds : ∀ x ∈ ds, Definition.Obeys F body x.2) (hi : Expr.foldOpt F init c) :
    ∀ x ∈ declarations.declarator (.mk site target init) ds, Definition.Obeys F body x.2 := by
  cases target with
  | ident id => exact List.forall_mem_cons.2 ⟨(h.exprOpt_iff init).1 hi, hds⟩
  | _ => exact hds

/-- What is judged by its parts has parts that are as they have to be. -/
theorem parts {f : (γ → Prop) → γ → Prop} {P : γ → Prop} (hf : Judges f f) (hc : f P c) : ∃ d, P d := by
  obtain ⟨H, d, hd⟩ := hf c
  exact ⟨d, ((hd P).1.1 hc).2⟩

theorem declarations_relates (h : F.Portable branch body) :
    declarations.Relates F fun ds P => ∀ c, P c → ∀ x ∈ ds, Definition.Obeys F body x.2 where
  empty _ _ := nofun
  append hP hQ c hPQ := by
    obtain ⟨hp, hq⟩ := h.append.1 hPQ
    exact List.forall_mem_append.2 ⟨hP c hp, hQ c hq⟩
  ident _ _ _ _ := nofun
  expr _ _ _ _ hP c he := hP body (h.expr.1 he)
  stmt x _ _ _ hP c hx := by
    obtain ⟨d, hd⟩ := parts (h.stmt rfl) hx
    exact hP d hd
  declarator _ _ target init hP c hd := by
    obtain ⟨d, hd⟩ := parts (h.declarator rfl) hd
    exact h.definition target (hP d hd) (h.append.1 hd).2
  element _ _ target init hP c hd := by
    obtain ⟨d, hd⟩ := parts (h.element rfl) hd
    exact h.definition target (hP d hd) (h.append.1 hd).2
  funcDecl f hP c hf := by
    obtain ⟨H, hH⟩ := h.funcDecl f f c
    obtain ⟨-, hf⟩ := (hH _).1.1 hf
    refine List.forall_mem_append.2 ⟨fun x hx => ?_, hP body hf⟩
    obtain ⟨id, -, rfl⟩ := List.mem_map.1 hx
    exact (h.func_own f .func).1 hf
  clsDecl k hP c hk := by
    obtain ⟨H, hH⟩ := h.clsDecl k k c
    obtain ⟨-, hk⟩ := (hH _).1.1 hk
    refine List.forall_mem_append.2 ⟨fun x hx => ?_, hP body hk⟩
    obtain ⟨id, -, rfl⟩ := List.mem_map.1 hx
    exact (h.class_own k .cls).1 hk
  property p _ _ hP c hp := by
    obtain ⟨d, hd⟩ := parts (h.property (.refl p)) hp
    exact hP d hd
  hole _ _ := nofun

/-- A pass starts with the definitions of the program. -/
theorem start (h : F.Portable branch body) {p : Program} {info : Info} (hn : Numbered (p.fold Fold.sites) info)
    (hp : p.fold F c) (usage : Usage) : (State.start p info usage).Obeys F body where
  definitions {site d} hd :=
    Program.fold_related h.declarations_relates p c hp _ ((State.start_definition? usage hn site d).1 hd)
  late := nofun

theorem eliminateList (h : F.Portable branch body) {p : Program} {info : Info} (hn : Numbered (p.fold Fold.sites) info)
    (hp : p.fold F c) (usage : Usage) :
    Stmt.foldList F (Stmt.eliminateList false p.body (.start p info usage)).1 c ∧
      (Stmt.eliminateList false p.body (.start p info usage)).2.Obeys F body :=
  Stmt.eliminateList_visits h.inherited.visits false p.body _ c (h.start hn hp usage) hp

/-- What resolution keeps, a pass keeps. -/
theorem eliminateOnce (h : F.Portable branch body) {p q : Program} {rs : List Change}
    (hp : p.resolve.1.fold F c) (hq : p.eliminateOnce = some (q, rs)) : q.fold F c := by
  obtain ⟨usage, -, hq⟩ := Option.bind_eq_some_iff.1 hq
  obtain ⟨hbody, ht⟩ := h.eliminateList p.resolve_numbered hp usage
  cases hq
  show (State.sweep _ _).fold F c
  rw [State.sweep_eq]
  split
  · exact hbody
  · have hrenew := Program.remove_related (h.renewal ht) ⟨_⟩ c hbody
    exact Program.remove_related (h.removes (fun hg => by cases hg) fun hk => by cases hk) _ c hrenew

end Fold.Portable

/-- What every pass keeps, a run keeps. -/
theorem Elimination.runFrom_keeps {P : Program → Prop}
    (hP : ∀ {p q rs}, p.eliminateOnce = some (q, rs) → P p → P q) {limit bound : Nat} {o o' : Outcome}
    (h : runFrom limit bound o = some o') (ho : P o.program) : P o'.program := by
  induction bound generalizing o with
  | zero =>
    cases h
    exact ho
  | succ bound ih =>
    unfold runFrom at h
    split at h
    · cases h
      exact ho
    · obtain ⟨⟨p, rs⟩, hp, h⟩ := Option.bind_eq_some_iff.1 h
      have hp := hP hp ho
      dsimp only at h
      split at h
      · cases h
        exact hp
      · exact ih h hp

end Deadwood
