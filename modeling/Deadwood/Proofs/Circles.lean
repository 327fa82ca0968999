import Deadwood.Proofs.Consulted
import Deadwood.Proofs.Ranking

/-!
# The search for what a constant stands for

To tell whether a constant name stands for a primitive value, a pass goes on to the names that the initializer
of its declarator consults.  The facts of the pass rank the constants, and whatever takes the place of an
initializer consults none that does not rank below the name, so the search never comes back to a declarator.
-/

namespace Deadwood

open Elimination

namespace Ranking

variable {R : Ranking} {s t : State}

/-! ### What a pass knows -/

/-- The facts of a pass are those of the ranking, and the definitions it knows are ranked. -/
structure Fits (R : Ranking) (s : State) : Prop where
  refs : s.info.refs = R.info.refs
  size : s.info.bindings.size = R.info.bindings.size
  bindings : ∀ {j c}, s.info.binding? j = some c → ∃ b, R.info.binding? j = some b ∧
    c.isConstant = b.isConstant ∧ c.isForward = b.isForward ∧ c.origin = b.origin
  definitions : ∀ {σ d}, s.definition? σ = some d → R.Placed σ d

namespace Fits

theorem bindingOf? (h : R.Fits s) (id : Ident) : s.info.bindingOf? id = R.info.bindingOf? id := by
  unfold Info.bindingOf?
  rw [h.refs]

theorem gives (h : R.Fits s) {j : BindingId} {b : Binding} (hb : s.info.binding? j = some b)
    (hc : b.isConstant = true) (hf : b.isForward = false) (hr : b.origin.isRun = true) : R.Gives b.origin j := by
  obtain ⟨c, hc', h₁, h₂, h₃⟩ := h.bindings hb
  exact ⟨Info.isOrdered_iff.2 ⟨c, hc', h₁ ▸ hc, h₂ ▸ hf, h₃ ▸ hr⟩, c, hc', h₃.symm⟩

/-- What is consulted for a constant from a declarator ranks below it. -/
theorem consulted_lt (h : R.Fits s) {σ : Site} {e : Expr} {j k : BindingId} {id : Ident}
    (he : s.definition? σ = some (.variable (some e))) (hj : R.Gives (.declarator σ) j) (hid : id ∈ e.consulted)
    (hk : R.info.bindingOf? id = some k) (hord : R.info.isOrdered k = true) : R.rank k < R.rank j :=
  Ranking.consulted_lt (h.definitions he e rfl j hj) hid hk hord

/-- A search with a bound above the rank of a name comes back to no declarator whose names rank above. -/
theorem circles (h : R.Fits s) (bound : Nat) {path : List Site} {id : Ident} (hpos : 0 < bound)
    (hid : ∀ j, R.info.bindingOf? id = some j → R.info.isOrdered j = true →
      R.rank j + 1 < bound ∧ ∀ σ ∈ path, ∀ k, R.Gives (.declarator σ) k → R.rank j < R.rank k) :
    s.circles bound path id = false := by
  induction bound generalizing path id with
  | zero => exact absurd hpos (Nat.lt_irrefl 0)
  | succ bound ih =>
    refine Bool.eq_false_iff.2 fun hc => ?_
    rw [State.circles, Bool.and_eq_true] at hc
    obtain ⟨hconst, hc⟩ := hc
    obtain ⟨b, hb, hconst⟩ := (Option.any_eq_true _ _).1 hconst
    obtain ⟨j, hj, hb⟩ := Option.bind_eq_some_iff.1 hb
    rw [Bool.and_eq_true, Bool.not_eq_true'] at hconst
    split at hc
    next σ e ho hi =>
      have hbo : b.origin = .declarator σ := by
        simpa only [State.origin?, hj, Option.bind_some, hb, Option.map_some, Option.some.injEq] using ho
      have hdef : s.definition? σ = some (.variable (some e)) := by
        rw [State.initializer?, ho] at hi
        simp only at hi
        split at hi
        next init hd =>
          cases hi
          exact hd
        · cases hi
      have hgives : R.Gives (.declarator σ) j :=
        hbo ▸ h.gives hb hconst.1 hconst.2 (by rw [hbo]; rfl)
      obtain ⟨hlt, hpath⟩ := hid j (h.bindingOf? id ▸ hj) hgives.1
      rw [Bool.or_eq_true] at hc
      rcases hc with hc | hc
      · exact Nat.lt_irrefl _ (hpath σ (List.contains_iff_mem.1 hc) j hgives)
      · obtain ⟨id', hid', hc⟩ := List.any_eq_true.1 hc
        rw [ih (by omega) fun k hk hord => ⟨?_, List.forall_mem_cons.2 ⟨fun l hl => ?_, fun τ hτ l hl => ?_⟩⟩] at hc
        · cases hc
        · have := h.consulted_lt hdef hgives hid' hk hord
          omega
        · exact h.consulted_lt hdef hl hid' hk hord
        · exact Nat.lt_trans (h.consulted_lt hdef hgives hid' hk hord) (hpath τ hτ l hl)
    · cases hc

/-- The bound on the names that stand for each other is never reached. -/
theorem not_isCircular (h : R.Fits s) : ¬ s.IsCircular := by
  rintro ⟨id, hid⟩
  have hlt {j : BindingId} (hord : R.info.isOrdered j = true) : R.rank j + 1 < s.info.bindings.size + 1 :=
    Nat.succ_lt_succ (h.size ▸ R.rank_lt hord)
  rw [h.circles _ (Nat.succ_pos _) fun j _ hord => ⟨hlt hord, fun σ hσ => (List.not_mem_nil hσ).elim⟩] at hid
  cases hid

theorem congr (h : R.Fits s) (hi : t.info = s.info) (hd : t.definitions = s.definitions) : R.Fits t where
  refs := hi ▸ h.refs
  size := hi ▸ h.size
  bindings := by
    rw [hi]
    exact h.bindings
  definitions {σ _} hdef := by
    have hdef : t.definitions[σ]?.join = some _ := hdef
    rw [hd] at hdef
    exact h.definitions hdef

theorem settles (h : R.Fits s) (hs : s.Settles t) : R.Fits t where
  refs := hs.refs.trans h.refs
  size := hs.size.trans h.size
  bindings hc := by
    obtain ⟨b, n, hb, -, rfl⟩ := hs.bindings hc
    obtain ⟨a, ha, hab⟩ := h.bindings hb
    exact ⟨a, ha, hab⟩
  definitions hdef := h.definitions (hs.definition? _ ▸ hdef)

theorem define (h : R.Fits s) (σ : Site) {d : Definition} (hd : R.Placed σ d) : R.Fits (define σ d s).2 where
  refs := h.refs
  size := h.size
  bindings := h.bindings
  definitions {τ d'} hdef := by
    have hdef : (s.definitions.setIfInBounds σ (some d))[τ]?.join = some d' := hdef
    rw [Array.getElem?_setIfInBounds] at hdef
    split at hdef
    next hσ =>
      split at hdef
      · cases hdef
        exact hσ ▸ hd
      · cases hdef
    · exact h.definitions hdef

end Fits

/-- The pass has not gone around in a circle, and will not. -/
structure Holds (R : Ranking) (s : State) : Prop extends R.Fits s where
  late : ∀ {σ d}, s.late.lookup σ = some d → R.Placed σ d
  circled : s.circled = false

namespace Holds

theorem congr (h : R.Holds s) (hi : t.info = s.info) (hd : t.definitions = s.definitions) (hl : t.late = s.late)
    (hc : t.circled = s.circled) : R.Holds t where
  toFits := h.toFits.congr hi hd
  late hlate := h.late (hl ▸ hlate)
  circled := hc.trans h.circled

theorem settles (h : R.Holds s) (hs : s.Settles t) : R.Holds t where
  toFits := h.toFits.settles hs
  late hlate := h.late (hs.late ▸ hlate)
  circled := by
    refine Bool.eq_false_iff.2 fun hc => ?_
    rcases hs.circled hc with hc | hc
    · rw [h.circled] at hc
      cases hc
    · exact h.not_isCircular hc

theorem define (h : R.Holds s) (σ : Site) {d : Definition} (hd : R.Placed σ d) : R.Holds (define σ d s).2 where
  toFits := h.toFits.define σ hd
  late := h.late
  circled := h.circled

theorem defineNamed (h : R.Holds s) (name : Option Ident) {d : Definition} (hd : ∀ id ∈ name, R.Placed id.site d) :
    R.Holds (defineNamed name d s).2 := by
  cases name with
  | none => exact h
  | some id =>
    have hdef := h.define id.site (hd id rfl)
    show R.Holds (if _ then _ else _)
    split
    · refine { hdef.toFits.congr rfl rfl with late := fun {σ d'} hlate => ?_, circled := h.circled }
      have hlate : ((id.site, d) :: s.late).lookup σ = some d' := hlate
      rw [List.lookup_cons] at hlate
      split at hlate
      next hσ =>
        cases hlate
        exact (beq_iff_eq.1 hσ) ▸ hd id rfl
      · exact h.late hlate
    · exact hdef

theorem defineVariable (h : R.Holds s) {site : Site} {target : Pattern} {init : Option Expr}
    (hi : ∀ id, target = .ident id → R.Placed site (.variable init)) :
    R.Holds (defineVariable (.mk site target init) s).2 := by
  cases target with
  | ident id => exact h.define site (hi id rfl)
  | _ => exact h

/-! ### Renewal -/

/-- A function or class that is brought up to date consults nothing of a higher rank. -/
theorem renewal (h : R.Holds s) : Removes s.renewal R.fold R.fold fun P Q => ∀ n, P n → Q n where
  empty_left := fold_hereditary.lawful.empty_left
  empty _ h := h
  append h h' n hPQ := ⟨h n hPQ.1, h' n hPQ.2⟩
  ident _ _ _ h := h
  hole _ h := h
  expr _ _ he h _ := expr_of_head he h
  stmt _ h := h
  property _ h := h
  declarator _ hh _ _ h _ := declarator_of_head hh h
  element hh _ _ h _ := declarator_of_head hh h
  funcDecl _ _ h _ := h R.top
  clsDecl _ hh h n hP := class_of_head hh h hP
  otherFunc {f g} ho n hP := by
    obtain ⟨id, -, ho⟩ := Option.bind_eq_some_iff.1 ho
    obtain ⟨d, hd, hg⟩ := Option.bind_eq_some_iff.1 ho
    cases d with
    | func g' =>
      cases hg
      exact func_kind (h.late hd)
    | _ => cases hg
  otherClass {c d} ho n hP := by
    obtain ⟨id, hid, ho⟩ := Option.bind_eq_some_iff.1 ho
    obtain ⟨d', hd, hg⟩ := Option.bind_eq_some_iff.1 ho
    cases d' with
    | cls k =>
      cases hg
      obtain ⟨hown, hname, hplaced⟩ := h.late hd
      obtain ⟨j, hj, hlt⟩ := (hP.2 id hid).resolve_left hown
      refine ⟨class_kind (class_mono (hplaced j hj) (Nat.le_of_lt hlt)), fun id' hid' => .inr ⟨j, ?_, hlt⟩⟩
      rw [hname id' hid']
      exact hj
    | _ => cases hg
  dropped _ _ _ _ _ := trivial
  gone _ _ _ _ := trivial
  emptied _ _ _ _ := trivial

/-! ### Rules -/

/-- The value of a constant, and what it consults, ranks below whatever the name is consulted for. -/
theorem value_fold (h : R.Holds s) {id : Ident} {i : BindingId} {b : Binding} {value : Expr} {n : Nat}
    (hi : s.Inlines id i b value) (hid : (Expr.ident id).fold R.fold n) : value.fold R.fold n := by
  obtain ⟨σ, d, e, ho, hd, he, rfl⟩ := State.valueOf?_spec hi.valueOf
  refine State.renewExpr_fold h.renewal ?_
  have hplaced := h.definitions hd
  have hconst : b.isConstant = true ∧ b.isForward = false := by
    have hinl := hi.inlinable
    simp only [State.isInlinable, Bool.and_eq_true, Bool.not_eq_true'] at hinl
    exact ⟨hinl.1.1.1.1.1.1.2, hinl.1.1.1.1.2⟩
  -- The name ranks below, since it gets its value from a declaration that is run.
  have hgives (hr : b.origin.isRun = true) : R.Gives b.origin i ∧ R.rank i < n := by
    have hg := h.gives hi.binding hconst.1 hconst.2 hr
    exact ⟨hg, hid rfl i (h.bindingOf? id ▸ hi.bound) hg.1⟩
  cases d with
  | «variable» init =>
    obtain ⟨hg, hlt⟩ := hgives (by rw [ho]; rfl)
    rw [ho] at hg
    exact expr_mono (hplaced e he i hg) (Nat.le_of_lt hlt)
  | func f =>
    cases he
    exact func_kind hplaced
  | cls c =>
    cases he
    obtain ⟨hg, hlt⟩ := hgives (by rw [ho]; rfl)
    rw [ho] at hg
    obtain ⟨-, hname, hclass⟩ := hplaced
    refine ⟨class_kind (class_mono (hclass i hg) (Nat.le_of_lt hlt)), fun id' hid' => .inr ⟨i, ?_, hlt⟩⟩
    rw [hname id' hid']
    exact hg

theorem inlining (h : R.Holds s) (i : BindingId) (b : Binding) (value : Expr) : R.Holds (s.inlining i b value) where
  refs := by
    show (s.info.modifyScope b.scope _).refs = _
    unfold Info.modifyScope
    split <;> exact h.refs
  size := by
    show ((s.info.modifyScope b.scope _).bindings.modify i _).size = _
    rw [Array.size_modify]
    unfold Info.modifyScope
    split <;> exact h.size
  bindings {j c} hc := by
    rw [State.inlining_binding?] at hc
    split at hc
    · obtain ⟨a, ha, rfl⟩ := Option.map_eq_some_iff.1 hc
      obtain ⟨a', ha', haa'⟩ := h.bindings ha
      exact ⟨a', ha', haa'⟩
    · exact h.bindings hc
  definitions := h.definitions
  late := h.late
  circled := h.circled

theorem inline (h : R.Holds s) (id : Ident) {n : Nat} (hid : (Expr.ident id).fold R.fold n) :
    (∀ e ∈ (inline id s).1, e.fold R.fold n) ∧ R.Holds (inline id s).2 := by
  obtain ⟨c, hs, he | ⟨i, b, value, hi, he⟩⟩ := State.inline_cases id s
  · rw [he]
    exact ⟨nofun, h.settles hs⟩
  · rw [he]
    refine ⟨?_, (h.settles hs).inlining i b value⟩
    rintro _ ⟨⟩
    exact (h.settles hs).value_fold hi hid

theorem trimDeclarator (h : R.Holds s) (kind : DeclKind) (d : Declarator) : R.Holds (trimDeclarator kind d s).2 := by
  rcases Ledger.trimDeclarator_cases kind d s with he | ⟨-, -, hset, -⟩ | ⟨_, _, _, v, -, -, -, hset, -, -, -, he⟩
  · rw [he]
    exact h
  · exact h.settles hset
  · rw [he]
    exact ((h.settles hset).define _ (d := .variable none) nofun).congr rfl rfl rfl rfl

end Holds

/-! ### The pass -/

/-- A declarator hands on what its parts do, for its names and for whatever consults it. -/
theorem hands_declarator (kind : BindingKind) {site : Site} {target target' : Pattern} {init init' : Option Expr}
    {s t u : State} (hh : target.head = target'.head)
    (h : Fold.Hands R.Holds (target.fold R.fold kind) s (target'.fold R.fold kind) t)
    (h' : Fold.Hands R.Holds (Expr.foldOpt R.fold init) t (Expr.foldOpt R.fold init') u) :
    Fold.Hands R.Holds ((Declarator.mk site target init).fold R.fold kind) s
      ((Declarator.mk site target' init').fold R.fold kind) (defineVariable (.mk site target' init') u).2 := by
  intro n hs hP
  have hboth (m : Nat) (hm : (R.fold.append (target.fold R.fold kind) (Expr.foldOpt R.fold init)) m) :
      (R.fold.append (target'.fold R.fold kind) (Expr.foldOpt R.fold init')) m ∧ R.Holds u := by
    obtain ⟨hQ, ht⟩ := h m hs hm.1
    obtain ⟨hQ', hu⟩ := h' m ht hm.2
    exact ⟨⟨hQ, hQ'⟩, hu⟩
  have hQ : ((Declarator.mk site target' init').fold R.fold kind) n :=
    declarator_of_head hh (fun m hm => (hboth m hm).1) hP
  refine ⟨hQ, (hboth n (declarator_parts hP)).2.defineVariable ?_⟩
  rintro id rfl e rfl j hj
  exact (hQ.2 j hj).2

/-- Every rule keeps the declarations ranked, and the pass out of circles. -/
theorem inherited (R : Ranking) : R.fold.Inherited id R.Holds where
  toHereditary := fold_hereditary
  settles h hs := h.settles hs
  listed _ h := h.congr rfl rfl rfl rfl
  renewal h := h.renewal
  inlines id _ h hid := h.inline id hid
  trims kind d h := h.trimDeclarator kind d
  expr he h n hs hP := by
    obtain ⟨m, hm⟩ := expr_parts hP
    exact ⟨expr_of_head he (fun n hP => (h n hs hP).1) hP, (h m hs hm).2⟩
  stmt _ h := h
  property _ h := h
  declarator kind _ _ _ _ _ _ _ _ hh h h' := hands_declarator kind hh h h'
  element kind _ _ _ _ _ _ _ _ hh h h' := hands_declarator kind hh h h'
  funcDecl {f f' s t} _ h n hs hP := by
    obtain ⟨hQ, ht⟩ := h R.top hs hP
    exact ⟨hQ, ht.defineNamed f'.name fun _ _ => hQ⟩
  clsDecl {k k' s t} hh h n hs hP := by
    have hQ := class_of_head hh (fun m hm => (h m hs hm).1) hP
    refine ⟨hQ, (h n hs hP.1).2.defineNamed k'.name fun id hid => ?_⟩
    obtain ⟨hown, hgives⟩ := hQ.2 id hid
    refine ⟨hown, fun id' hid' => ?_, hgives⟩
    cases hid.symm.trans hid'
    rfl

/-- A pass starts with the definitions of the program. -/
theorem holds_start {p : Program} (hn : Numbered (p.fold Fold.sites) R.info) {n : Nat} (hp : p.fold R.fold n)
    (usage : Usage) : R.Holds (State.start p R.info usage) where
  refs := rfl
  size := rfl
  bindings hc := ⟨_, hc, rfl, rfl, rfl⟩
  definitions {σ d} hd :=
    Program.fold_related declarations_relates p n hp _ ((State.start_definition? usage hn σ d).1 hd)
  late := nofun
  circled := rfl

end Ranking

/-- The constants of a resolved program are ranked by the order in which they are declared. -/
theorem Program.exists_ranking (p : Program) : ∃ R : Ranking, R.info = p.resolve.2 ∧ p.resolve.1.fold R.fold R.top := by
  obtain ⟨L, hL⟩ := p.resolve_order
  have hranked := Program.fold_related
    (Info.ranking_relates p.resolve_numbered hL.nodup hL.once) p.resolve.1
  have hsites : (p.resolve.1.fold (Fold.sites.both Fold.dated)).1 = p.resolve.1.fold Fold.sites :=
    Program.fold_related (Fold.both_fst ..) p.resolve.1
  have hdated : (p.resolve.1.fold (Fold.sites.both Fold.dated)).2 = p.resolve.1.fold Fold.dated :=
    Program.fold_related (Fold.both_snd ..) p.resolve.1
  refine ⟨_, rfl, hranked ?_ L _ List.prefix_rfl ?_ Info.early_le_size⟩
  · rw [hsites]
    exact ⟨List.Subset.refl _, List.Subset.refl _, List.Subset.refl _⟩
  · rw [hdated]
    exact hL.dated

/-- Whenever a pass asks if an expression is constant, from the first time to the last, the search from constant
names to what their initializers consult, as the pass has left them so far, comes to an end within the bound on
the names that stand for each other, and never comes back to a declarator that it has come through.  So the
answer to each question is the one that the search gives with any larger bound. -/
theorem Program.pass_never_circles (p : Program) (usage : Usage) :
    ((Stmt.eliminateList false p.resolve.1.body).run (State.start p.resolve.1 p.resolve.2 usage)).2.circled =
        false ∧
      ∀ (s : State) (e : Expr), ((ask (some e)).run s).2.circled = false → ∀ more,
        e.isPureConstant (s.factsWithin (s.info.bindings.size + 1 + more)) = e.isPureConstant s.facts := by
  obtain ⟨R, hinfo, hp⟩ := p.exists_ranking
  have hstart : R.Holds (State.start p.resolve.1 p.resolve.2 usage) :=
    hinfo ▸ Ranking.holds_start (hinfo ▸ p.resolve_numbered) hp usage
  obtain ⟨-, hend⟩ := Stmt.eliminateList_visits R.inherited.visits false p.resolve.1.body _ _ hstart hp
  exact ⟨hend.circled, fun s e h more => State.isPureConstant_of_ask h more⟩

end Deadwood
