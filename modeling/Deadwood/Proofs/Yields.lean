import Deadwood.Parser.State
import Deadwood.Proofs.Head

/-!
# What a parser yields

Parsing goes on after a fault, and it may go back to a checkpoint.  So what a parser yields is said of the
faults at its end: those found before its start are kept, and where there are no more, what was read is as the
grammar wants it.  The scopes are the same at the end in any case, also if faults were found.
-/

namespace Deadwood.Parser

variable {α β : Type} {m : Parser α} {k : α → Parser β} {P Q : Context → α → Prop} {R : Context → β → Prop}

/-- The parser leaves the scopes as they were and keeps all faults, and unless it has found one, `P` holds of
the context and what it has read. -/
structure Yields (m : Parser α) (P : Context → α → Prop) : Prop where
  scopes : ∀ s, (m s).2.scopes = s.scopes
  faults : ∀ s, s.faults <+: (m s).2.faults
  result : ∀ s, (m s).2.faults.length = s.faults.length → P s.context (m s).1

/-- A parser that leaves the scopes as they were and keeps all faults. -/
abbrev Steady (m : Parser α) : Prop := m.Yields fun _ _ => True

namespace Yields

theorem context (h : m.Yields P) (s : State) : (m s).2.context = s.context := congrArg Scopes.inner (h.scopes s)

theorem faults_le (h : m.Yields P) (s : State) : s.faults.length ≤ (m s).2.faults.length := (h.faults s).length_le

theorem mono (h : m.Yields P) (hPQ : ∀ c a, P c a → Q c a) : m.Yields Q where
  scopes := h.scopes
  faults := h.faults
  result s hs := hPQ _ _ (h.result s hs)

theorem steady (h : m.Yields P) : m.Steady := h.mono fun _ _ _ => trivial

/-- Reading the state changes nothing. -/
theorem read (f : State → α) : Steady (do return f (← get)) := ⟨fun _ => rfl, fun _ => List.prefix_rfl, fun _ _ => trivial⟩

theorem pure {a : α} (h : ∀ c, P c a) : Yields (pure a) P := ⟨fun _ => rfl, fun _ => List.prefix_rfl, fun _ _ => h _⟩

theorem modify {f : State → State} (hc : ∀ s, (f s).scopes = s.scopes) (hf : ∀ s, s.faults <+: (f s).faults) :
    Steady (modify f : Parser Unit) :=
  ⟨hc, hf, fun _ _ => trivial⟩

/-- If nothing was found by the end, nothing was found by the end of the first parser either. -/
theorem bind (hm : m.Yields P) (hk : ∀ a, (k a).Yields fun c b => P c a → R c b) : (m >>= k).Yields R where
  scopes s := ((hk _).scopes _).trans (hm.scopes s)
  faults s := (hm.faults s).trans ((hk _).faults _)
  result s hs := by
    have hle := hm.faults_le s
    have hle' := (hk (m s).1).faults_le (m s).2
    rw [run_bind] at hs ⊢
    have hP := hm.result s (by omega)
    have hR := (hk (m s).1).result (m s).2 (by omega)
    rw [hm.context s] at hR
    exact hR hP

theorem seq (hm : m.Steady) (hk : ∀ a, (k a).Yields R) : (m >>= k).Yields R :=
  hm.bind fun a => (hk a).mono fun _ _ h _ => h

theorem map {f : α → β} (hm : m.Yields fun c a => R c (f a)) : (f <$> m).Yields R :=
  ⟨hm.scopes, hm.faults, hm.result⟩

theorem discard (hm : m.Steady) : Steady (discard m) := map hm

/-- Nothing is read where something may stand. -/
theorem bindNone {k : Option α → Parser β} (hk : ∀ o, (k o).Yields fun c b => (∀ a ∈ o, P c a) → R c b) :
    (Pure.pure none >>= k).Yields R :=
  .bind (P := fun c o => ∀ a ∈ o, P c a) (.pure nofun) hk

theorem bindSome {k : Option α → Parser β} (hm : m.Yields P)
    (hk : ∀ o, (k o).Yields fun c b => (∀ a ∈ o, P c a) → R c b) : (some <$> m >>= k).Yields R := by
  refine .bind (P := fun c o => ∀ a ∈ o, P c a) (.map (hm.mono fun _ a ha => ?_)) hk
  rintro _ ⟨⟩
  exact ha

section Branches

variable {b : Prop} [Decidable b]

theorem ite {n : Parser α} (hm : b → m.Yields P) (hn : ¬ b → n.Yields P) : (if b then m else n).Yields P := by
  split
  · exact hm ‹b›
  · exact hn ‹¬ b›

/-- A step that is made only in some case. -/
theorem when {n : Parser Unit} {k : Unit → Parser β} {N : Context → Unit → Prop} (hn : n.Yields N)
    (hk : (k ()).Yields fun c r => (b → N c ()) → R c r) : (if b then n >>= k else k ()).Yields R := by
  refine .ite (fun _ => ?_) fun hb => ?_
  · exact hn.bind fun _ => hk.mono fun _ _ h hN => h fun _ => hN
  · exact hk.mono fun _ _ h => h fun h => absurd h hb

theorem option {n : Parser Unit} {k : Unit → Parser β} (hn : n.Steady) (hk : (k ()).Yields R) :
    (if b then n >>= k else k ()).Yields R :=
  .when hn (hk.mono fun _ _ h _ => h)

end Branches

/-! ### Scopes that are changed for a while -/

section Scopes

variable {σ : Type} {f g : Scopes → Scopes}

/-- A change of the scopes is undone behind a parser. -/
theorem undone (hm : m.Yields P) (s : State) (hgf : g (f s.scopes) = s.scopes) :
    let t := (do changeScopes f; let a ← m; changeScopes g; return a : Parser α) s
    t.2.scopes = s.scopes ∧ s.faults <+: t.2.faults ∧
      (t.2.faults.length = s.faults.length → P (f s.scopes).inner t.1) := by
  refine ⟨?_, hm.faults { s with scopes := f s.scopes }, hm.result { s with scopes := f s.scopes }⟩
  show g (m { s with scopes := f s.scopes }).2.scopes = s.scopes
  rw [hm.scopes]
  exact hgf

/-- What was read of the setting before puts it right. -/
theorem inSetting (t : Setting σ) (v : σ) (hm : m.Yields P) :
    (inSetting t v m).Yields fun c a => P (t.put v c) a := by
  have hundone (s : State) := hm.undone (f := .change (t.put v)) (g := .change (t.put (t.get s.context))) s
    (congrArg (Scopes.mk · s.scopes.outer) (t.put_get v s.context))
  exact ⟨fun s => (hundone s).1, fun s => (hundone s).2.1, fun s => (hundone s).2.2⟩

theorem withIn (hm : m.Yields P) : (withIn m).Yields fun c a => P { c with allowIn := true } a :=
  hm.inSetting .allowIn true

/-- The label that is taken away is the one that was added, because the parser leaves all others. -/
theorem inLabel (label : String) (hm : m.Yields P) :
    (inLabel label m).Yields fun c a => P { c with labels := c.labels ++ [label] } a := by
  have hundone (s : State) := hm.undone (f := .change fun c => { c with labels := c.labels ++ [label] })
    (g := .change fun c => { c with labels := c.labels.dropLast }) s
    (congrArg (fun labels => Scopes.mk { s.scopes.inner with labels } s.scopes.outer) List.dropLast_concat)
  exact ⟨fun s => (hundone s).1, fun s => (hundone s).2.1, fun s => (hundone s).2.2⟩

theorem inFunction (async generator : Bool) (hm : m.Yields P) :
    (inFunction async generator m).Yields fun c a => P (.function async generator c) a := by
  have hundone (s : State) := hm.undone (f := .openFunction async generator) (g := .closeFunction) s rfl
  exact ⟨fun s => (hundone s).1, fun s => (hundone s).2.1, fun s => (hundone s).2.2⟩

end Scopes

/-! ### Loops -/

theorem starve_steady : starve.Steady := .modify (fun _ => rfl) fun _ => List.prefix_rfl

/-- What a step keeps, the loop keeps. -/
theorem many {I : Context → α → Prop} {go : Parser Bool} {step : α → Parser (α × Bool)} (hgo : go.Steady)
    (hstep : ∀ a, (step a).Yields fun c r => I c a → I c r.1) (n : Nat) (a : α) :
    (many go step n a).Yields fun c b => I c a → I c b := by
  induction n generalizing a with
  | zero => exact starve_steady.seq fun _ => .pure fun _ h => h
  | succ n ih =>
    refine hgo.seq fun b => .ite (fun _ => ?_) fun _ => .pure fun _ h => h
    refine (hstep a).bind fun r => .ite (fun _ => ?_) fun _ => .pure fun _ hr h => hr h
    exact (ih r.1).mono fun _ _ h hr ha => h (hr ha)

end Yields

/-! ### Going back -/

/-- What a parser does after the checkpoint of `s₀`, if `H` holds unless a fault was found since. -/
def Since (s₀ : State) (H : Prop) (m : Parser α) (P : Context → α → Prop) : Prop :=
  ∀ s : State, s.scopes = s₀.scopes → s₀.faults <+: s.faults → (s.faults.length = s₀.faults.length → H) →
    (m s).2.scopes = s₀.scopes ∧ s₀.faults <+: (m s).2.faults ∧
      ((m s).2.faults.length = s₀.faults.length → P s₀.context (m s).1)

namespace Since

variable {s₀ : State} {H : Prop}

theorem bind (hm : m.Yields P) (hk : ∀ a, Since s₀ (H ∧ P s₀.context a) (k a) R) : Since s₀ H (m >>= k) R := by
  intro s hc hf hH
  have hle := hf.length_le
  have hle' := hm.faults_le s
  refine hk (m s).1 (m s).2 ((hm.scopes s).trans hc) (hf.trans (hm.faults s)) fun h => ⟨hH (by omega), ?_⟩
  rw [State.context, ← hc]
  exact hm.result s (by omega)

theorem get {k : State → Parser β} (hk : ∀ s, Since s₀ H (k s) R) : Since s₀ H (get >>= k) R :=
  fun s hc hf hH => hk s s hc hf hH

theorem ite {n : Parser α} {b : Prop} [Decidable b] (hm : Since s₀ H m P) (hn : Since s₀ H n P) :
    Since s₀ H (if b then m else n) P := by
  split
  · exact hm
  · exact hn

/-- The parser goes on. -/
theorem resume (hm : m.Yields fun c a => H → P c a) : Since s₀ H m P := by
  intro s hc hf hH
  have hle := hf.length_le
  have hle' := hm.faults_le s
  refine ⟨(hm.scopes s).trans hc, hf.trans (hm.faults s), fun h => ?_⟩
  rw [State.context, ← hc]
  exact hm.result s (by omega) (hH (by omega))

/-- The parser goes back, and what was found since does not count. -/
theorem restore {k : PUnit → Parser β} (hk : (k ⟨⟩).Yields R) : Since s₀ H (restore s₀.checkpoint >>= k) R := by
  intro s hc hf _
  rw [run_bind, restore_checkpoint hc hf]
  let back : State := { s₀ with starved := s.starved }
  exact ⟨hk.scopes back, hk.faults back, hk.result back⟩

end Since

theorem Yields.checkpoint {k : Checkpoint → Parser β} (hk : ∀ s₀, Since s₀ True (k s₀.checkpoint) R) :
    (checkpoint >>= k).Yields R where
  scopes s := (hk s s rfl List.prefix_rfl fun _ => trivial).1
  faults s := (hk s s rfl List.prefix_rfl fun _ => trivial).2.1
  result s := (hk s s rfl List.prefix_rfl fun _ => trivial).2.2

/-! ### Tokens and faults -/

theorem token_steady : token.Steady := .read _

theorem kind_steady : kind.Steady := .read _

theorem context_yields : context.Yields fun c c' => c' = c :=
  ⟨fun _ => rfl, fun _ => List.prefix_rfl, fun _ _ => rfl⟩

theorem failed_steady : failed.Steady := .read _

theorem isOpen_steady (closing : TokenKind) : (isOpen closing).Steady := .read _

/-- Looking ahead leaves no trace. -/
theorem peek_steady : peek.Steady where
  scopes s := congrArg (·.2.scopes) (run_peek s)
  faults s := by simp only [run_peek, List.prefix_rfl]
  result _ _ := trivial

theorem isWord_steady (w : String) : (isWord w).Steady := token_steady.seq fun _ => .pure fun _ => trivial

/-- Nothing holds where a fault is reported. -/
theorem reportAt_yields (offset : Nat) (cause : Cause) : (reportAt offset cause).Yields fun _ _ => False where
  scopes _ := rfl
  faults s := List.prefix_append _ _
  result s hs := by
    have hs : (s.faults ++ [(⟨offset, cause⟩ : Fault)]).length = s.faults.length := hs
    rw [List.length_append, List.length_singleton] at hs
    omega

theorem report_yields (cause : Cause) : (report cause).Yields fun _ _ => False :=
  token_steady.seq fun _ => reportAt_yields _ _

theorem unexpected_yields (t : Token) : (unexpected t).Yields fun _ _ => False := reportAt_yields _ _

theorem unexpectedHere_yields : unexpectedHere.Yields fun _ _ => False :=
  token_steady.seq fun _ => unexpected_yields _

/-- Whatever comes after a fault may be as it is. -/
theorem Yields.faulty {n : Parser Unit} {k : Unit → Parser β} (hn : n.Yields fun _ _ => False)
    (hk : (k ()).Steady) : (n >>= k).Yields R :=
  hn.bind fun _ => hk.mono fun _ _ _ h => h.elim

theorem next_steady : next.Steady := .modify (fun _ => rfl) fun _ => List.prefix_append _ _

theorem expect_steady (k : TokenKind) : (expect k).Steady :=
  kind_steady.seq fun _ => .option unexpectedHere_yields.steady next_steady

theorem expectWord_steady (w : String) : (expectWord w).Steady :=
  (isWord_steady w).seq fun _ => .option unexpectedHere_yields.steady next_steady

theorem accept_steady (k : TokenKind) : (accept k).Steady :=
  kind_steady.seq fun _ => .ite (fun _ => next_steady.seq fun _ => .pure fun _ => trivial)
    fun _ => .pure fun _ => trivial

theorem semicolon_steady : semicolon.Steady := by
  refine token_steady.seq fun t => .ite (fun _ => next_steady) fun _ => .ite (fun _ => ?_) fun _ => ?_
  · exact (unexpected_yields t).steady.seq fun _ => next_steady
  · exact .pure fun _ => trivial

/-! ### Lists -/

theorem itemList_yields {item : Parser α} (closing : TokenKind) (hitem : item.Yields P) (n : Nat) :
    (itemList closing item n).Yields fun c as => ∀ a ∈ as, P c a := by
  refine (Yields.many (I := fun c as => ∀ a ∈ as, P c a) (isOpen_steady closing) (fun as => ?_) n []).bind
    fun as => .pure fun c has a ha => has (by simp) a (List.mem_reverse.1 ha)
  exact hitem.bind fun a => .pure fun c ha has => List.forall_mem_cons.2 ⟨ha, has⟩

theorem commaList_yields {item : Parser α} (closing : TokenKind) (hitem : item.Yields P) (n : Nat) :
    (commaList closing item n).Yields fun c as => ∀ a ∈ as, P c a := by
  refine (Yields.many (I := fun c as => ∀ a ∈ as, P c a) (isOpen_steady closing) (fun as => ?_) n []).bind
    fun as => .pure fun c has a ha => has (by simp) a (List.mem_reverse.1 ha)
  refine hitem.bind fun a => kind_steady.seq fun _ => .option (expect_steady _) (.pure fun c ha has => ?_)
  exact List.forall_mem_cons.2 ⟨ha, has⟩

/-! ### Names -/

/-- An identifier is made of its name alone. -/
theorem identifier_yields : identifier.Yields fun _ id => { name := id.name } = id := by
  refine token_steady.seq fun t => context_yields.steady.seq fun c => ?_
  exact .option (unexpected_yields t).steady (next_steady.seq fun _ => .pure fun _ => rfl)

theorem identifier_steady : identifier.Steady := identifier_yields.steady

theorem isBindingName_steady : isBindingName.Steady := by
  refine token_steady.seq fun t => context_yields.steady.seq fun c => ?_
  split <;> exact .pure fun _ => trivial

theorem propertyName_yields : propertyName.Yields fun _ id => { name := id.name } = id := by
  refine token_steady.seq fun t => .ite (fun _ => ?_) fun _ => ?_
  · exact (unexpected_yields t).steady.seq fun _ => next_steady.seq fun _ => .pure fun _ => rfl
  · refine context_yields.steady.seq fun c => .option (report_yields _).steady ?_
    exact next_steady.seq fun _ => .pure fun _ => rfl

theorem isModifier_steady (w : String) : (isModifier w).Steady := by
  refine (isWord_steady w).seq fun _ => .ite (fun _ => .pure fun _ => trivial) fun _ => ?_
  refine peek_steady.seq fun t => ?_
  split <;> exact .pure fun _ => trivial

end Deadwood.Parser
