import Deadwood.Proofs.Closing
import Deadwood.Proofs.PrintStamps
import Deadwood.Proofs.SecondPass
import Deadwood.Proofs.Termination
import Deadwood.Proofs.TidyScopes

/-!
# Running twice

A pass that records no change leaves the tidied program.  What is known of it at the start of the next pass
is what was known of the program before, so that pass does not record a change either.
-/

namespace Deadwood

open Elimination

/-! ### What a pass starts with -/

/-- At the start of a pass every declaration of the program is known by its site. -/
theorem Elimination.State.start_definition? {p : Program} {info : Info} (usage : Usage)
    (h : Numbered (p.fold Fold.sites) info) (site : Site) (d : Definition) :
    (State.start p info usage).definition? site = some d ↔ (site, d) ∈ p.fold declarations := by
  let s := State.start p info usage
  have hsuits : (Ledger.ofPass .bulk h s s).Suits p s :=
    ⟨rfl, rfl, fun σ hσ => (((Ledger.ofPass_closes .bulk h s s).late σ).1 hσ).2, fun _ => rfl⟩
  exact hsuits.definition h site d

theorem Rerun.known_relates (R : Rerun) :
    declarations.Relates R.known fun ds P => (∀ x ∈ ds, R.base x.1 = some x.2) → P where
  empty _ := trivial
  append h h' hd := ⟨h fun x hx => hd x (List.mem_append_left _ hx), h' fun x hx => hd x (List.mem_append_right _ hx)⟩
  ident _ _ _ := trivial
  expr _ _ _ _ h := h
  stmt _ _ _ _ h := h
  declarator kind site target init h hd := by
    cases target with
    | ident id =>
      refine ⟨fun site' id' init' he => ?_, h fun x hx => hd x (List.mem_cons_of_mem _ hx)⟩
      cases he
      exact hd _ List.mem_cons_self
    | _ => exact ⟨nofun, h hd⟩
  element kind site target init h hd := by
    cases target with
    | ident id =>
      refine ⟨fun site' id' init' he => ?_, h fun x hx => hd x (List.mem_cons_of_mem _ hx)⟩
      cases he
      exact hd _ List.mem_cons_self
    | _ => exact ⟨nofun, h hd⟩
  funcDecl f h hd :=
    ⟨fun id hid => hd (id.site, .func f) (List.mem_append_left _ (List.mem_map_of_mem (Option.mem_toList.2 hid))),
      h fun x hx => hd x (List.mem_append_right _ hx)⟩
  clsDecl c h hd :=
    ⟨fun id hid => hd (id.site, .cls c) (List.mem_append_left _ (List.mem_map_of_mem (Option.mem_toList.2 hid))),
      h fun x hx => hd x (List.mem_append_right _ hx)⟩
  property _ _ _ h := h
  hole _ := trivial

/-! ### The same knowledge of the tidied program -/

section

variable {f : Ident → Ident} (hf : ∀ id, (f id).site = id.site)

include hf

theorem named_tidies (name : Option Ident) (d : Definition) {ds es : List (Site × Definition)}
    (h : es = ds.map fun x => (x.1, x.2.tidy f)) :
    ((name.map f).toList.map fun id => (id.site, d.tidy f)) ++ es =
      ((name.toList.map fun id => (id.site, d)) ++ ds).map fun x => (x.1, x.2.tidy f) := by
  rw [h]
  cases name with
  | none => rfl
  | some id => exact congrArg (fun site => (site, d.tidy f) :: ds.map _) (hf id)

theorem declarations_tidies :
    declarations.Tidies declarations f fun ds es => es = ds.map fun x => (x.1, x.2.tidy f) where
  stmt_left _ _ := rfl
  stmt_right _ _ := rfl
  empty_left _ := rfl
  empty := rfl
  append h h' := by rw [h, h']; exact List.map_append.symm
  ident _ _ := rfl
  unbound _ _ _ := rfl
  hole := rfl
  expr _ _ _ h := h
  property _ _ _ h := h
  declarator kind site target init h := by
    cases target with
    | ident id => exact congrArg ((site, Definition.variable (Expr.tidyOpt f init)) :: ·) h
    | _ => exact h
  element kind site target init h := by
    cases target with
    | ident id => exact congrArg ((site, Definition.variable (Expr.tidyOpt f init)) :: ·) h
    | _ => exact h
  funcDecl fn h := by
    have hn := named_tidies hf fn.name (.func fn) h
    rw [← Func.tidy_name] at hn
    exact hn
  clsDecl c h := by
    have hn := named_tidies hf c.name (.cls c) h
    rw [← Class.tidy_name] at hn
    exact hn

end

/-- What is defined first is looked up in the tidied program as it is in the program. -/
theorem foldl_setIfInBounds_map {α : Type} (t : α → α) (ds : List (Site × α)) (init : Array (Option α)) :
    (ds.map fun x => (x.1, t x.2)).foldl (fun ds d => ds.setIfInBounds d.1 (some d.2)) (init.map (Option.map t)) =
      (ds.foldl (fun ds d => ds.setIfInBounds d.1 (some d.2)) init).map (Option.map t) := by
  induction ds generalizing init with
  | nil => rfl
  | cons d ds ih =>
    rw [List.map_cons, List.foldl_cons, List.foldl_cons, ← ih, Array.map_setIfInBounds, Option.map_some]

namespace Renumbering

variable (R : Renumbering)

theorem start_definition? (p : Program) (usage usage' : Usage) (site : Site) :
    (State.start (p.tidy R.stamp) R.info' usage').definition? site =
      ((State.start p R.info usage).definition? site).map (Definition.tidy R.stamp) := by
  have hd : (p.tidy R.stamp).fold declarations = _ := Program.fold_tidy (declarations_tidies R.stamp_site) p
  have hm := foldl_setIfInBounds_map (Definition.tidy R.stamp) (p.fold declarations)
    (Array.replicate R.info.decls.size none)
  rw [Array.map_replicate, Option.map_none] at hm
  simp only [State.start, State.definition?, hd, R.decls, hm]
  exact join_map ..

theorem declaredName (name : Option Ident) :
    (name.map R.stamp).bind R.info'.declaration? = name.bind R.info.declaration? := by
  cases name with
  | none => rfl
  | some id => exact R.declaration? id

theorem named? (d : Declarator) : Usage.named? R.info' (d.tidy R.stamp) = Usage.named? R.info d := by
  match d with
  | .mk _ (.ident id) (some init) =>
    have hinit : ((init.tidy R.stamp).isFunctionLike || (init.tidy R.stamp).isClassLike) =
        (init.isFunctionLike || init.isClassLike) := by cases init <;> rfl
    simp only [Declarator.tidy, Pattern.tidy, Expr.tidyOpt, Usage.named?, hinit, R.declaration?]
  | .mk _ (.ident _) none | .mk _ .hole _ | .mk _ (.array ..) _ | .mk _ (.object ..) _ => rfl

theorem usage_tidies : (Usage.fold R.info).Tidies (Usage.fold R.info') R.stamp fun a b => b = a where
  stmt_left _ _ := rfl
  stmt_right _ _ := rfl
  empty_left _ := rfl
  empty := rfl
  append h h' := by rw [h, h']; rfl
  ident role id := by
    funext source u
    simp only [Usage.fold, R.bindingOf?]
  unbound role id _ := by
    -- Only the site of an identifier matters.
    have hid : R.info'.bindingOf? id = R.info.bindingOf? id := R.bindingOf? id
    funext source u
    simp only [Usage.fold, hid]
  hole := rfl
  expr _ _ _ h := h
  property _ _ _ h := h
  declarator kind site target init h := congrArg₂ Usage.within (R.named? (.mk site target init)) h
  element kind site target init h := congrArg₂ Usage.within (R.named? (.mk site target init)) h
  funcDecl fn h := by
    have hn := R.declaredName fn.name
    rw [← Func.tidy_name] at hn
    exact congrArg₂ Usage.within hn h
  clsDecl c h := by
    have hn := R.declaredName c.name
    rw [← Class.tidy_name] at hn
    exact congrArg₂ Usage.within hn h

/-- Both programs make the same use of their names. -/
theorem usage? (p : Program) : (p.tidy R.stamp).usage? R.info' = p.usage? R.info :=
  congrFun (congrFun (Program.fold_tidy R.usage_tidies p) none) .empty

theorem deadCycles (u : Usage) : u.deadCycles R.info' = u.deadCycles R.info := by
  have hclosed : ∀ members, u.isClosed R.info' members = u.isClosed R.info members := by
    intro members
    funext b
    rw [Usage.isClosed, Usage.isClosed, R.binding?]
    cases R.info.binding? b <;> rfl
  have hcycle : u.isDeadCycle R.info' = u.isDeadCycle R.info := by
    funext members
    unfold Usage.isDeadCycle
    rw [hclosed]
  rw [Usage.deadCycles, Usage.deadCycles, hcycle]

/-- A pass over a resolved program and a pass over its tidied form, both from the start. -/
def rerun (p : Program) (usage : Usage) : Rerun where
  toRenumbering := R
  base := (State.start p R.info usage).definition?
  start := State.start (p.tidy R.stamp) R.info' usage
  start_info := rfl
  start_clean := ⟨rfl, rfl, rfl, rfl, rfl⟩
  start_definition := R.start_definition? p usage usage

theorem rerun_still (p : Program) (usage : Usage) :
    (R.rerun p usage).Still (State.start p R.info usage) (State.start (p.tidy R.stamp) R.info' usage) where
  info := rfl
  cyclic := (R.deadCycles usage).symm
  definitions _ := .inl rfl
  clean := ⟨rfl, rfl, rfl, rfl, rfl⟩
  later := ⟨false, rfl⟩

theorem rerun_known {p : Program} (usage : Usage) (h : Numbered (p.fold Fold.sites) R.info) :
    p.fold (R.rerun p usage).known :=
  Program.fold_related (R.rerun p usage).known_relates p fun x hx => (State.start_definition? usage h x.1 x.2).2 hx

end Renumbering

/-! ### Passes and runs -/

theorem Elimination.State.Clean.sweep {s : State} (h : s.Clean) (p : Program) : s.sweep p = p := by
  rw [State.sweep, h.dead]
  rfl

/-- The program that a pass leaves without a change is left as it is by the next one, but for its stamps, and no
rule applies to it. -/
theorem Program.eliminateOnce_again {q r : Program} (h : q.eliminateOnce = some (r, [])) :
    ∃ usage, r.resolve.1.usage? r.resolve.2 = some usage ∧ r.eliminateOnce = some (r.resolve.1, []) ∧
      r.resolve.1.fold (State.start r.resolve.1 r.resolve.2 usage).normal ∧
      (State.start r.resolve.1 r.resolve.2 usage).NormalList false r.resolve.1.body := by
  obtain ⟨usage, hu, h⟩ := Option.bind_eq_some_iff.1 h
  obtain ⟨hr, hc⟩ := Prod.mk.inj (Option.some.inj h)
  have hc := List.reverse_eq_nil_iff.1 hc
  obtain ⟨F, info', htidy, hm⟩ := Program.resolve_tidy (f := id) (fun _ => rfl) q.resolve.1
  rw [q.resolve_resolve] at htidy hm
  let R := hm.renumbering
  have hrepeat := Stmt.repeatsList (R := R.rerun q.resolve.1 usage) false q.resolve.1.body
    (R.rerun_known usage q.resolve_numbered)
  obtain ⟨h₁, h₂, hN, hs⟩ := hrepeat.still (R.rerun_still q.resolve.1 usage) hc
  have hr : r = q.resolve.1.tidy id := by
    rw [← hr]
    refine (hs.clean.sweep _).trans (congrArg Program.mk h₁)
  subst hr
  have hu' : (q.resolve.1.tidy R.stamp).usage? info' = some usage := (R.usage? q.resolve.1).trans hu
  rw [Program.eliminateOnce, htidy]
  refine ⟨usage, hu', Option.bind_eq_some_iff.2 ⟨usage, hu', congrArg some (Prod.ext ?_ ?_)⟩, hN.1, hN.2⟩
  · exact (hs.clean'.sweep _).trans (congrArg Program.mk h₂)
  · exact List.reverse_eq_nil_iff.2 hs.clean'.changes

/-- The last pass of a run without a limit changes nothing. -/
theorem Program.eliminate_last {p : Program} {o : Outcome} (h : p.eliminate 0 = some o) :
    ∃ q : Program, q.eliminateOnce = some (o.program, []) := by
  obtain ⟨o, ho, rfl⟩ := Option.map_eq_some_iff.1 h
  have hw := p.bulk_le_weight
  exact (runFrom_spec (by show p.bulk < _; omega) ho).1

/-- A run that has come to an end is not taken any further by another one: it makes one pass that changes
nothing, and leaves the program and its text. -/
theorem Program.eliminate_idempotent {p : Program} {o : Outcome} (h : p.eliminate 0 = some o) :
    ∃ o', o.program.eliminate 0 = some o' ∧ o'.stats.changes = 0 ∧ o'.stats.iterations = 1 ∧
      o'.program.unstamped = o.program.unstamped ∧ o'.program.print = o.program.print := by
  obtain ⟨q, hq⟩ := Program.eliminate_last h
  obtain ⟨-, -, hagain, -⟩ := Program.eliminateOnce_again hq
  have hrun : o.program.eliminate 0 =
      some ({ program := o.program : Outcome }.advance o.program.resolve.1 []).finish := by
    rw [Program.eliminate, Nat.mul_succ, runFrom_succ]
    exact congrArg (Option.map Outcome.finish) (congrArg (Option.bind · _) hagain)
  have hstamps := o.program.resolve_unstamped
  refine ⟨_, hrun, rfl, rfl, hstamps, ?_⟩
  calc
    o.program.resolve.1.print = o.program.resolve.1.unstamped.print := (Program.unstamped_print _).symm
    _ = o.program.unstamped.print := by rw [hstamps]
    _ = o.program.print := Program.unstamped_print _

/-- `while (f) { { ; } if (true) g(); }` -/
def sampleIdle : Program where
  body := [.while (.ident { name := "f" }) (.block
    [.block [.empty], .cond (.bool true) (.expr (.call (.ident { name := "g" }) [] false)) none])]

/-- The first run drops the block, and the second one has a scope less. -/
theorem Program.eliminate_idempotent_sample : ∃ o, sampleIdle.eliminate 0 = some o ∧ o.stats.changes = 1 ∧
    o.program.resolve.2.scopes.size + 1 = sampleIdle.resolve.2.scopes.size ∧
    ∃ o', o.program.eliminate 0 = some o' ∧ o'.stats.changes = 0 ∧ o'.stats.iterations = 1 ∧
      o'.program.unstamped = o.program.unstamped ∧ o'.program.print = o.program.print := by
  have hrun : (sampleIdle.eliminate 0).map (fun o => (o.stats.changes, o.program.resolve.2.scopes.size + 1)) =
      some (1, sampleIdle.resolve.2.scopes.size) := by decide +kernel
  obtain ⟨o, ho, he⟩ := Option.map_eq_some_iff.1 hrun
  obtain ⟨hc, hs⟩ := Prod.mk.inj he
  exact ⟨o, ho, hc, hs, Program.eliminate_idempotent ho⟩

/-- What a run leaves, resolved again, is in normal form. -/
theorem Program.eliminate_isNormal {p : Program} {o : Outcome} (h : p.eliminate 0 = some o) :
    ∃ usage, o.program.resolve.1.usage? o.program.resolve.2 = some usage ∧
      o.program.resolve.1.IsNormal (State.start o.program.resolve.1 o.program.resolve.2 usage) := by
  obtain ⟨q, hq⟩ := Program.eliminate_last h
  obtain ⟨usage, hu, -, hall, hbody⟩ := Program.eliminateOnce_again hq
  exact ⟨usage, hu, State.isNormal hall hbody⟩

/-- `return x; var x = 1;` in a function that is called: the variable is not initialized but stays. -/
def sampleReturn : Program where
  body := [.expr (.call (.func (.mk none [] none
    [.ret (some (.ident { name := "x" })), .decl .var [.mk 0 (.ident { name := "x" }) (some (.string { value := "1" }))]]
    false false)) [] false)]

theorem Program.eliminate_isNormal_sample : ∃ o, sampleReturn.eliminate 0 = some o ∧ o.stats.changes = 1 ∧
    ∃ usage, o.program.resolve.1.usage? o.program.resolve.2 = some usage ∧
      o.program.resolve.1.IsNormal (State.start o.program.resolve.1 o.program.resolve.2 usage) := by
  have hrun : (sampleReturn.eliminate 0).map (·.stats.changes) = some 1 := by decide +kernel
  obtain ⟨o, ho, hc⟩ := Option.map_eq_some_iff.1 hrun
  exact ⟨o, ho, hc, Program.eliminate_isNormal ho⟩

end Deadwood
