import Deadwood.Proofs.Payment

/-!
# Properties that a pass hands on

A property of pieces of syntax in a context is hereditary if it is a matter of their parts.  `Hereditary` lists
what the rules of a pass ask of such a property, and `Inherited` what is to be shown of it, and of what the pass
knows, to find that every rule hands it on.
-/

namespace Deadwood

open Elimination

variable {γ : Type}

/-- A piece of syntax is as it has to be in a context if its parts are, where the branches of an `if` are in the
context `branch`. -/
structure Fold.Hereditary (F : Fold (γ → Prop)) (branch : γ → γ) : Prop where
  empty : ∀ c, F.empty c
  append : ∀ {P Q c}, F.append P Q c ↔ P c ∧ Q c
  nothing : ∀ c, Stmt.empty.fold F c
  wrapped : ∀ {body c}, Stmt.foldList F body c → (Stmt.block body).fold F c
  /-- A block that no name needs can do without its braces. -/
  unwrapped : ∀ {body c}, (Stmt.block body).fold F c → body.any Stmt.isBlockScoped = false → Stmt.foldList F body c
  cond : ∀ {test yes no c}, (Stmt.cond test yes no).fold F c ↔
    test.fold F c ∧ yes.fold F (branch c) ∧ Stmt.foldOpt F no (branch c)
  branched : ∀ {x : Stmt} {c}, x.fold F (branch c) → x.fold F c
  bare : ∀ (ids : List Ident) c,
    (Stmt.decl .var (ids.map fun id => .mk 0 (.ident { id with site := 0 }) none)).fold F c
  choice : ∀ {test yes no c}, (Expr.cond test yes no).fold F c ↔ test.fold F c ∧ yes.fold F c ∧ no.fold F c
  seq : ∀ {e c}, e.fold F c → (Expr.seq [.number 0 none, e]).fold F c
  not : ∀ {e c}, (Expr.unary .not e).fold F c ↔ e.fold F c
  short : ∀ {id c}, (Property.short id none).fold F c ↔ (Expr.ident id).fold F c
  keyed : ∀ {id e c}, e.fold F c → (Property.inlined id (some e)).fold F c

namespace Fold.Hereditary

variable {F : Fold (γ → Prop)} {branch : γ → γ} {c : γ}

theorem lawful (h : F.Hereditary branch) : F.Lawful where
  assoc P Q R := by
    funext c
    simp only [h.append, and_assoc]
  empty_left P := by
    funext c
    simp only [h.append, h.empty, true_and]
  empty_right P := by
    funext c
    simp only [h.append, h.empty, and_true]

theorem foldList_iff (h : F.Hereditary branch) {ts : List Stmt} : Stmt.foldList F ts c ↔ ∀ t ∈ ts, t.fold F c := by
  induction ts with
  | nil => exact iff_of_true (h.empty c) nofun
  | cons t ts ih =>
    rw [List.forall_mem_cons, ← ih]
    exact h.append

theorem survivingVars (h : F.Hereditary branch) (s : State) (x : Stmt) {t : Stmt} (ht : t ∈ s.survivingVars x) :
    t.fold F c := by
  rcases Ledger.survivingVars_eq s x with ⟨-, he⟩ | he
  · rw [he] at ht
    cases ht
  · rw [he, List.mem_singleton] at ht
    subst ht
    exact h.bare _ c

theorem branchStmts (h : F.Hereditary branch) {x : Stmt} (hx : x.fold F c) {t : Stmt} (ht : t ∈ branchStmts x) :
    t.fold F c := by
  unfold Elimination.branchStmts at ht
  split at ht
  · split at ht
    · cases List.mem_singleton.1 ht
      exact hx
    · next hbody => exact h.foldList_iff.1 (h.unwrapped hx (Bool.eq_false_iff.2 hbody)) t ht
  · split at ht
    · cases List.mem_singleton.1 ht
      exact h.wrapped (h.foldList_iff.2 (List.forall_mem_singleton.2 hx))
    · cases List.mem_singleton.1 ht
      exact hx

theorem negate (h : F.Hereditary branch) {e : Expr} (he : e.fold F c) : e.negate.fold F c := by
  unfold Expr.negate
  split
  · exact h.not.1 he
  · exact h.not.2 he

theorem normalize (h : F.Hereditary branch) {test : Expr} {yes : Stmt} {no : Option Stmt}
    (hx : (Stmt.cond test yes no).fold F c) (s : State) : (normalize test yes no s).1.fold F c := by
  rcases normalize_cases test yes no s with he | ⟨other, rfl, -, he | he⟩
  · rw [he]
    exact hx
  · obtain ⟨htest, hyes, -⟩ := h.cond.1 hx
    rw [he]
    exact h.cond.2 ⟨htest, hyes, h.empty _⟩
  · obtain ⟨htest, -, hno⟩ := h.cond.1 hx
    rw [he]
    exact h.cond.2 ⟨h.negate htest, hno, h.empty _⟩

theorem foldIf (h : F.Hereditary branch) {test : Expr} {yes : Stmt} {no : Option Stmt}
    (hx : (Stmt.cond test yes no).fold F c) (s : State) : ∀ t ∈ (foldIf test yes no s).1, t.fold F c := by
  have hno : ∀ x ∈ no, x.fold F c := by
    rintro x rfl
    exact h.branched (h.cond.1 hx).2.2
  rcases foldIf_cases test yes no s with he | ⟨keep, drop, u, hbranches, -, he, -⟩
  · rw [he]
    exact List.forall_mem_singleton.2 (h.normalize hx s)
  · have hkeep : ∀ x ∈ keep, x.fold F c := by
      rcases hbranches with ⟨rfl, -⟩ | ⟨rfl, -⟩
      · rintro _ ⟨⟩
        exact h.branched (h.cond.1 hx).2.1
      · exact hno
    rw [he]
    intro t ht
    rcases List.mem_append.1 ht with ht | ht
    · cases drop with
      | none => cases ht
      | some x => exact h.survivingVars u x ht
    · cases keep with
      | none => cases ht
      | some x => exact h.branchStmts (hkeep x rfl) ht

theorem asOne (h : F.Hereditary branch) {ts : List Stmt} (hts : ∀ t ∈ ts, t.fold F c) : (asOne ts).fold F c := by
  match ts with
  | [] => exact h.nothing c
  | [t] => exact hts t List.mem_cons_self
  | _ :: _ :: _ => exact h.wrapped (h.foldList_iff.2 hts)

end Fold.Hereditary

/-! ### Renewal -/

section

variable {F : Fold (γ → Prop)} {s : State} {c : γ}

theorem Elimination.State.renewExpr_fold (h : Removes s.renewal F F fun P Q => ∀ c, P c → Q c) {e : Expr}
    (he : e.fold F c) : (s.renewExpr e).fold F c := by
  unfold State.renewExpr
  split
  · exact he
  · exact (Expr.remove_related h e false Removal.allows_false).1 _ he

theorem Elimination.State.renewStmt_fold (h : Removes s.renewal F F fun P Q => ∀ c, P c → Q c) {x : Stmt}
    (hx : x.fold F c) : (s.renewStmt x).fold F c := by
  unfold State.renewStmt
  split
  · exact hx
  · obtain ⟨hrel, hm⟩ := Stmt.remove_related h x false Removal.allows_false
    refine hrel.resolve_left (fun hmark => ?_) c hx
    exact Removal.not_isUnmarked hm hmark ⟨fun _ => rfl, fun _ => rfl, fun _ => rfl, rfl⟩

end

/-! ### What a pass knows -/

/-- A step hands on what a piece has to be in a context, and what the pass has to know. -/
def Fold.Hands (J : State → Prop) (P : γ → Prop) (s : State) (Q : γ → Prop) (t : State) : Prop :=
  ∀ c, J s → P c → Q c ∧ J t

/-- A hereditary property that values, renewals and definitions hand on, if the pass knows what `J` says. -/
structure Fold.Inherited (F : Fold (γ → Prop)) (branch : γ → γ) (J : State → Prop) : Prop extends
    F.Hereditary branch where
  settles : ∀ {s t}, J s → s.Settles t → J t
  listed : ∀ {s : State} sites, J s → J { s with listed := sites }
  renewal : ∀ {s}, J s → Removes s.renewal F F fun P Q => ∀ c, P c → Q c
  inlines : ∀ {s} id c, J s → (Expr.ident id).fold F c →
    (∀ e ∈ (inline id s).1, e.fold F c) ∧ J (inline id s).2
  trims : ∀ {s} kind d, J s → J (trimDeclarator kind d s).2
  expr : ∀ {e e' P Q s t}, e.head = e'.head → Hands J P s Q t → Hands J (F.expr e P) s (F.expr e' Q) t
  stmt : ∀ {x x' P Q s t}, x.head = x'.head → Hands J P s Q t → Hands J (F.stmt x P) s (F.stmt x' Q) t
  property : ∀ {p p' P Q s t}, p.Becomes p' → Hands J P s Q t →
    Hands J (F.property p P) s (F.property p' Q) t
  declarator : ∀ kind {site target target' init init' s t u}, target.head = target'.head →
    Hands J (target.fold F kind) s (target'.fold F kind) t →
    Hands J (Expr.foldOpt F init) t (Expr.foldOpt F init') u →
    Hands J ((Declarator.mk site target init).fold F kind) s ((Declarator.mk site target' init').fold F kind)
      (defineVariable (.mk site target' init') u).2
  element : ∀ kind {site target target' init init' s t u}, target.head = target'.head →
    Hands J (target.fold F kind) s (target'.fold F kind) t →
    Hands J (Expr.foldOpt F init) t (Expr.foldOpt F init') u →
    Hands J ((Declarator.mk site target init).foldElem F kind) s
      ((Declarator.mk site target' init').foldElem F kind) (defineVariable (.mk site target' init') u).2
  funcDecl : ∀ {f f' s t}, f.head = f'.head → Hands J (f.fold F .func) s (f'.fold F .func) t →
    Hands J ((Stmt.func f).fold F) s ((Stmt.func f').fold F) (defineFunc f' t).2
  clsDecl : ∀ {k k' s t}, k.head = k'.head → Hands J (k.fold F .cls) s (k'.fold F .cls) t →
    Hands J ((Stmt.cls k).fold F) s ((Stmt.cls k').fold F) (defineClass k' t).2

namespace Fold.Inherited

variable {F : Fold (γ → Prop)} {branch : γ → γ} {J : State → Prop} {s : State} {c : γ}

theorem foldConditional (h : F.Inherited branch J) (hs : J s) (role : OperandRole) {test yes no : Expr}
    (he : (Expr.cond test yes no).fold F c) :
    (foldConditional role test yes no s).1.fold F c ∧ J (foldConditional role test yes no s).2 := by
  obtain ⟨htest, hyes, hno⟩ := h.choice.1 he
  have htest := State.renewExpr_fold (h.renewal hs) htest
  have hyes := State.renewExpr_fold (h.renewal hs) hyes
  have hno := State.renewExpr_fold (h.renewal hs) hno
  rcases foldConditional_cases role test yes no s with he | ⟨keep, _, hkeep, he, hrec, -⟩
  · rw [he]
    exact ⟨h.choice.2 ⟨htest, hyes, hno⟩, hs⟩
  · have hkeep : keep.fold F c := by rcases hkeep with ⟨rfl, -⟩ | ⟨rfl, -⟩ <;> assumption
    refine ⟨?_, h.settles hs hrec.toSettles⟩
    rcases he with he | he
    · rw [he]
      exact hkeep
    · rw [he]
      exact h.seq hkeep

theorem finish (h : F.Inherited branch J) (hs : J s) {x : Stmt} (hx : x.fold F c) :
    (∀ t ∈ (finish x s).1, t.fold F c) ∧ J (finish x s).2 := by
  have hx := State.renewStmt_fold (h.renewal hs) hx
  rcases finish_cases x s with ⟨-, he⟩ | ⟨test, yes, no, hr, he⟩ | ⟨-, he⟩ | ⟨-, he⟩
  · rw [he]
    exact ⟨nofun, h.settles hs (removeDeclaration_settles _ s)⟩
  · rw [he]
    rw [hr] at hx
    refine ⟨h.foldIf hx s, ?_⟩
    rcases foldIf_cases test yes no s with hf | ⟨_, _, _, -, -, -, hrec, -⟩
    · rw [hf]
      rcases normalize_cases test yes no s with hn | ⟨_, -, hrec, -⟩
      · rw [hn]
        exact hs
      · exact h.settles hs hrec.toSettles
    · exact h.settles hs hrec.toSettles
  · rw [he]
    exact ⟨nofun, hs⟩
  · rw [he]
    exact ⟨List.forall_mem_singleton.2 hx, h.settles hs (removeDeclaration_settles _ s)⟩

theorem trimsAll (h : F.Inherited branch J) (kind : DeclKind) (ds : List Declarator) (hs : J s) :
    J (ds.forM (trimDeclarator kind) s).2 := by
  induction ds generalizing s with
  | nil => exact hs
  | cons d ds ih => exact ih (h.trims kind d hs)

/-- Every rule hands on the property, and what the pass knows. -/
theorem visits (h : F.Inherited branch J) : Visits F (fun _ => Hands J) (Hands J) (Hands J) where
  lawful := h.lawful
  empty _ hs hP := ⟨hP, hs⟩
  ident _ _ _ _ hs hP := ⟨hP, hs⟩
  hole _ hs hP := ⟨hP, hs⟩
  append h₁ h₂ c hs hPQ := by
    obtain ⟨hP, hQ⟩ := h.append.1 hPQ
    obtain ⟨hP, ht⟩ := h₁ c hs hP
    obtain ⟨hQ, hu⟩ := h₂ c ht hQ
    exact ⟨h.append.2 ⟨hP, hQ⟩, hu⟩
  part hv := hv
  expr _ _ he hv := h.expr he hv
  stmt hx hv := h.stmt hx hv
  property hp hv := h.property hp hv
  inlineExpr id s c hs hP := by
    obtain ⟨hv, ht⟩ := h.inlines id c hs hP
    refine ⟨?_, ht⟩
    cases hi : (inline id s).1 with
    | none => exact hP
    | some e => exact hv e hi
  inlineProperty id s c hs hP := by
    obtain ⟨hv, ht⟩ := h.inlines id c hs (h.short.1 hP)
    refine ⟨?_, ht⟩
    cases hi : (inline id s).1 with
    | none => exact hP
    | some e => exact h.keyed (hv e hi)
  conditional role _ _ _ _ _ _ _ _ hv c hs hP := by
    obtain ⟨hQ, ht⟩ := hv c hs hP
    exact h.foldConditional ht role hQ
  deadDeclarator _ _ _ _ _ hs hP := ⟨hP, hs⟩
  deadStmt _ _ hs hP := ⟨hP, hs⟩
  declarator kind _ _ _ _ _ _ _ _ _ _ hh _ _ ht hi := h.declarator kind hh ht hi
  trimmed kind _ _ _ _ _ _ _ _ hh _ ht := h.declarator kind hh ht fun c hs _ => ⟨h.empty c, hs⟩
  deadElement _ _ _ _ _ hs hP := ⟨hP, hs⟩
  element kind _ _ _ _ _ _ _ _ hh _ _ ht hi := h.element kind hh ht hi
  trimmedElement kind _ _ _ _ _ _ hh _ ht := h.element kind hh ht fun c hs _ => ⟨h.empty c, hs⟩
  funcDecl hf hv := h.funcDecl hf hv
  clsDecl hk hv := h.clsDecl hk hv
  loopHead _ _ _ _ _ _ hv c hs hP := by
    obtain ⟨hQ, ht⟩ := hv c hs hP
    exact ⟨hQ, h.settles ht (removeDeclarators_settles _ _)⟩
  entered _ hv c hs hP := hv c (h.settles hs (removeDeclaration_settles _ _)) hP
  removed _ := by
    refine ⟨fun c hs _ => ⟨h.empty c, ?_⟩, fun c hs _ => ⟨h.nothing c, ?_⟩⟩
    · exact h.settles hs (removeDeclaration_settles _ _)
    · exact h.settles hs (removeDeclaration_settles _ _)
  finished _ _ hv := by
    refine ⟨fun c hs hP => ?_, fun c hs hP => ?_⟩
    · obtain ⟨hQ, ht⟩ := hv c hs hP
      obtain ⟨hts, hu⟩ := h.finish ht hQ
      exact ⟨h.foldList_iff.2 hts, hu⟩
    · obtain ⟨hQ, ht⟩ := hv c hs hP
      obtain ⟨hts, hu⟩ := h.finish ht hQ
      exact ⟨h.asOne hts, hu⟩
  unfinished hv := hv
  slot hv := hv
  kept _ hv := hv
  listed {x b s t} hv c hs hP := by
    refine hv c ?_ hP
    cases x with
    | decl _ ds => exact h.listed _ hs
    | _ => exact hs
  pruned {x s} _ c hs _ := by
    refine ⟨h.foldList_iff.2 fun t ht => h.survivingVars _ x ht, ?_⟩
    exact h.settles hs (prune_spec x s).2.1.toSettles
  trimming kind _ _ _ _ _ hv c hs hP := hv c (h.trimsAll kind _ hs) hP
  vanished c hs _ := ⟨h.empty c, hs⟩
  filtered hv c hs hP := by
    obtain ⟨hQ, ht⟩ := hv c hs hP
    refine ⟨h.foldList_iff.2 fun t hmem => ?_, ht⟩
    exact h.foldList_iff.1 hQ t (List.mem_filter.1 hmem).1

end Fold.Inherited

end Deadwood
