import Deadwood.Parser.Module
import Deadwood.Proofs.Scanning

/-!
# Parsing goes forward

A parser never goes back behind the token it started at, and what it reads of the text bounds what it does:
every turn of a loop passes a token, unless parsing has failed, and a production that runs another one at the
same token runs one that is lower in the grammar.  So the bytes ahead bound the depth of recursion and the
length of loops.
-/

namespace Deadwood.Parser

/-! ### States further on -/

/-- The number of bytes from the current token on. -/
def State.left (s : State) : Nat := s.token.start.left

/-- What is behind a parser that ran out of no bound. -/
structure State.Leads (s s' : State) : Prop where
  sound : s'.token.Sound
  left : s'.left ≤ s.left
  faults : s.faults.length ≤ s'.faults.length
  starved : s'.starved = s.starved

/-- The token of `s` is passed, or parsing has failed. -/
def State.Past (s s' : State) : Prop := s'.failed = true ∨ s'.left < s.left

namespace State

variable {s s' s'' : State}

theorem Leads.refl (h : s.token.Sound) : s.Leads s := ⟨h, Nat.le_refl _, Nat.le_refl _, rfl⟩

theorem Leads.trans (h : s.Leads s') (h' : s'.Leads s'') : s.Leads s'' where
  sound := h'.sound
  left := Nat.le_trans h'.left h.left
  faults := Nat.le_trans h.faults h'.faults
  starved := h'.starved.trans h.starved

theorem Leads.failed (h : s.Leads s') (hs : s.failed = true) : s'.failed = true := by
  have := h.faults
  simp only [State.failed, decide_eq_true_eq] at hs ⊢
  omega

theorem Past.trans_leads (h : s.Past s') (h' : s'.Leads s'') : s.Past s'' :=
  h.imp h'.failed fun hlt => Nat.lt_of_le_of_lt h'.left hlt

theorem Leads.trans_past (h : s.Leads s') (h' : s'.Past s'') : s.Past s'' :=
  h'.imp id fun hlt => Nat.lt_of_lt_of_le hlt h.left

/-- A token that is not the end has text. -/
theorem left_pos (h : s.token.Sound) (hk : s.token.kind ≠ .eof) : 0 < s.left := by
  rw [Nat.pos_iff_ne_zero]
  intro hleft
  exact hk (h.atEnd (Cursor.left_eq_zero.1 hleft))

end State

/-! ### Room for what is inside -/

/-- The bound `n` on the depth of recursion has room for what is up to `b` levels deep at the current token
and for everything behind it, if there are `l` bytes ahead. -/
def Room (n b l : Nat) : Prop := 8 * l + b ≤ n

/-- The bound `n` has room for what is up to `b` levels deep at the token behind the current one. -/
def Ahead (n b l : Nat) : Prop := Room n b (l - 1)

section Room

variable {n b c l : Nat}

theorem Room.mono (hb : b ≤ c) (l : Nat) (h : Room n c l) : Room n b l := by
  unfold Room at *
  omega

theorem Room.ahead (hc : c ≤ b + 8) (l : Nat) (hl : 0 < l) (h : Room n b l) : Ahead n c l := by
  unfold Ahead Room at *
  omega

theorem Room.behind (l : Nat) (h : Room n b l) : Ahead n b l := by
  unfold Ahead Room at *
  omega

theorem Ahead.anti {k : Nat} (h : Ahead n b l) (hk : k ≤ l) : Ahead n b k := by
  unfold Ahead Room at *
  omega

/-- There is room for a loop that passes a token in every turn. -/
theorem Room.turns (hb : 2 ≤ b) (l : Nat) (h : Room n b l) : l + 1 < n := by
  unfold Room at h
  omega

theorem Ahead.turns (l : Nat) (h : Ahead n 8 l) : l + 1 < n := by
  unfold Ahead Room at h
  omega

end Room

/-! ### Parsers that end -/

variable {α β : Type} {m : Parser α} {k : α → Parser β} {R S : Nat → Prop} {P : α → Nat → Prop}
  {T past : β → Nat → Prop} {n : Nat}

/-- Where `R` holds of the bytes ahead, the parser ends and goes forward.  It passes the current token if
`past` holds of what it gives and of the bytes ahead. -/
structure Ends (m : Parser α) (R : Nat → Prop) (past : α → Nat → Prop) : Prop where
  leads : ∀ s : State, s.token.Sound → (∀ l ≤ s.left, R l) → s.Leads (m s).2
  past : ∀ s : State, s.token.Sound → (∀ l ≤ s.left, R l) → past (m s).1 s.left → s.Past (m s).2

/-- The parser may stay where it is. -/
def never : α → Nat → Prop := fun _ _ => False

/-- The parser passes any token but the end. -/
def always : α → Nat → Prop := fun _ l => 0 < l

/-- The step of a loop passes a token if the loop goes on. -/
def onward : α × Bool → Nat → Prop := fun r _ => r.2 = true

/-- Where `R` holds of the bytes ahead, the parser ends and passes any token but the end, also if parsing has
failed. -/
structure Takes (m : Parser α) (R : Nat → Prop) : Prop where
  leads : ∀ s : State, s.token.Sound → (∀ l ≤ s.left, R l) → s.Leads (m s).2
  left : ∀ s : State, s.token.Sound → (∀ l ≤ s.left, R l) → (m s).2.left ≤ s.left - 1

theorem run_bind (s : State) : (m >>= k) s = k (m s).1 (m s).2 := rfl

namespace Ends

theorem mono {p : α → Nat → Prop} (h : m.Ends S P) (hR : ∀ l, R l → S l) (hp : ∀ a l, p a l → P a l) :
    m.Ends R p where
  leads s hs hr := h.leads s hs fun l hl => hR l (hr l hl)
  past s hs hr hpast := h.past s hs (fun l hl => hR l (hr l hl)) (hp _ _ hpast)

theorem weaken (h : m.Ends S P) (hR : ∀ l, R l → S l) : m.Ends R P := h.mono hR fun _ _ => id

theorem never (h : m.Ends R P) : m.Ends R never := h.mono (fun _ => id) fun _ _ => False.elim

/-- The second parser need not pass what the first one has passed. -/
theorem bind {Q : α → β → Nat → Prop} (hm : m.Ends R P) (hk : ∀ a, (k a).Ends R (Q a))
    (h : ∀ a b l, past b l → P a l ∨ Q a b l) : (m >>= k).Ends R past where
  leads s hs hr := by
    have hle := hm.leads s hs hr
    exact hle.trans ((hk _).leads _ hle.sound fun l hl => hr l (Nat.le_trans hl hle.left))
  past s hs hr hp := by
    have hle := hm.leads s hs hr
    have hr' : ∀ l ≤ (m s).2.left, R l := fun l hl => hr l (Nat.le_trans hl hle.left)
    have hle' := (hk (m s).1).leads _ hle.sound hr'
    rw [run_bind] at hp ⊢
    rcases h (m s).1 _ _ hp with hp | hp
    · exact (hm.past s hs hr hp).trans_leads hle'
    · rcases Nat.lt_or_eq_of_le hle.left with hlt | heq
      · exact .inr (Nat.lt_of_le_of_lt hle'.left hlt)
      · exact hle.trans_past ((hk _).past _ hle.sound hr' (heq ▸ hp))

theorem seq (hm : m.Ends R P) (hk : ∀ a, (k a).Ends R past) : (m >>= k).Ends R past :=
  hm.bind hk fun _ _ _ => .inr

theorem first (hm : m.Ends R always) (hk : ∀ a, (k a).Ends R Parser.never) : (m >>= k).Ends R always :=
  hm.bind hk fun _ _ _ => .inl

theorem pure {a : α} (h : ∀ l, ¬ P a l) : Ends (pure a) R P where
  leads _ hs _ := .refl hs
  past s _ _ hp := absurd hp (h s.left)

/-- A parser that gives something and stays where it is. -/
theorem done {a : α} : Ends (Pure.pure a) R Parser.never := pure fun _ => id

/-- A loop that stops here. -/
theorem stop {a : α} : Ends (Pure.pure (a, false)) R onward := pure fun _ h => nomatch h

theorem read (f : State → α) : Ends (do return f (← get)) R Parser.never :=
  ⟨fun _ hs _ => .refl hs, fun _ _ _ hp => hp.elim⟩

theorem map {f : α → β} (hm : m.Ends R P) : (f <$> m).Ends R Parser.never where
  leads := hm.leads
  past _ _ _ hp := hp.elim

section Branches

variable {b : Prop} [Decidable b]

theorem ite {m' : Parser α} (hm : b → m.Ends R P) (hm' : ¬ b → m'.Ends R P) :
    (if b then m else m').Ends R P := by
  split
  · exact hm ‹b›
  · exact hm' ‹¬ b›

/-- A step that is made only in some case. -/
theorem option {m : Parser Unit} {P : Unit → Nat → Prop} {k : Unit → Parser β} (hm : m.Ends R P)
    (hk : (k ()).Ends R past) : (if b then m >>= k else k ()).Ends R past :=
  ite (fun _ => hm.seq fun _ => hk) fun _ => hk

end Branches

/-- The scopes make no difference. -/
theorem between (f g : Scopes → Scopes) (hm : m.Ends R P) :
    Ends (do changeScopes f; let a ← m; changeScopes g; return a) R P where
  leads s hs hr := by
    have h := hm.leads { s with scopes := f s.scopes } hs hr
    exact ⟨h.sound, h.left, h.faults, h.starved⟩
  past s hs hr hp := hm.past { s with scopes := f s.scopes } hs hr hp

theorem inSetting {σ : Type} (t : Setting σ) (v : σ) (hm : m.Ends R P) : (inSetting t v m).Ends R P where
  leads s := (hm.between (.change (t.put v)) (.change (t.put (t.get s.context)))).leads s
  past s := (hm.between (.change (t.put v)) (.change (t.put (t.get s.context)))).past s

theorem withIn (hm : m.Ends R P) : (withIn m).Ends R P := hm.inSetting _ _

theorem inLabel (label : String) (hm : m.Ends R P) : (inLabel label m).Ends R P := hm.between _ _

theorem inFunction (async generator : Bool) (hm : m.Ends R P) : (inFunction async generator m).Ends R P :=
  hm.between _ _

/-- What is read of the state tells whether there is a token ahead. -/
theorem live {c : Nat} {f : State → α} (hend : ∀ s, s.token.kind = .eof → (k (f s)).Ends R past)
    (hlive : ∀ s, s.token.kind ≠ .eof →
      (k (f s)).Ends (fun l => R l ∧ Ahead n c l) fun b l => past b l ∧ 0 < l)
    (hR : ∀ l, 0 < l → R l → Ahead n c l) : ((do return f (← get)) >>= k).Ends R past := by
  have hroom (s : State) (hs : s.token.Sound) (hk : s.token.kind ≠ .eof) (hr : ∀ l ≤ s.left, R l) :
      ∀ l ≤ s.left, R l ∧ Ahead n c l := by
    intro l hl
    have hahead := hR s.left (State.left_pos hs hk) (hr _ (Nat.le_refl _))
    exact ⟨hr l hl, hahead.anti hl⟩
  constructor
  · intro s hs hr
    by_cases hk : s.token.kind = .eof
    · exact (hend s hk).leads s hs hr
    · exact (hlive s hk).leads s hs (hroom s hs hk hr)
  · intro s hs hr hp
    by_cases hk : s.token.kind = .eof
    · exact (hend s hk).past s hs hr hp
    · exact (hlive s hk).past s hs (hroom s hs hk hr) ⟨hp, State.left_pos hs hk⟩

/-- What passes the token that is known to be ahead. -/
theorem ahead {c : Nat} (hm : m.Ends (Ahead n c) always) :
    m.Ends (fun l => R l ∧ Ahead n c l) fun a l => P a l ∧ 0 < l :=
  hm.mono (fun _ => And.right) fun _ _ => And.right

/-- What does not need to know that there is a token ahead. -/
theorem here {c : Nat} (hm : m.Ends R P) : m.Ends (fun l => R l ∧ Ahead n c l) fun a l => P a l ∧ 0 < l :=
  hm.mono (fun _ => And.left) fun _ _ => And.left

/-- What a keyword opens. -/
theorem keyword {w : TokenKind} {p : Context → Bool} {m m' : Parser β} (hw : w ≠ .eof)
    (hm : m.Ends (Ahead n 8) always) (hm' : m'.Ends R past) (hR : ∀ l, 0 < l → R l → Ahead n 8 l) :
    (do if (← kind) = w && p (← context) then m else m' : Parser β).Ends R past := by
  refine live (f := fun s => (s.token.kind, s.context))
    (k := fun c => if (decide (c.1 = w) && p c.2) = true then m else m')
    (fun s hs => ite (fun h => ?_) fun _ => hm') (fun s _ => ite (fun _ => ?_) fun _ => ?_) hR
  · rw [hs, Bool.and_eq_true, decide_eq_true_iff] at h
    exact absurd h.1.symm hw
  · exact hm.ahead
  · exact hm'.here

/-- A parser that does nothing at the end of a text. -/
theorem unlessEnd {c : Nat} (hend : ∀ s, s.token.kind = .eof → ∃ a, m s = (a, s) ∧ ∀ l, ¬ P a l)
    (hlive : m.Ends (Ahead n c) fun a l => P a l ∧ 0 < l) (hR : ∀ l, 0 < l → R l → Ahead n c l) :
    m.Ends R P := by
  have hroom (s : State) (hs : s.token.Sound) (hk : s.token.kind ≠ .eof) (hr : ∀ l ≤ s.left, R l) :
      ∀ l ≤ s.left, Ahead n c l :=
    fun l hl => (hR s.left (State.left_pos hs hk) (hr _ (Nat.le_refl _))).anti hl
  constructor
  · intro s hs hr
    by_cases hk : s.token.kind = .eof
    · obtain ⟨a, ha, -⟩ := hend s hk
      rw [ha]
      exact .refl hs
    · exact hlive.leads s hs (hroom s hs hk hr)
  · intro s hs hr hp
    by_cases hk : s.token.kind = .eof
    · obtain ⟨a, ha, hstay⟩ := hend s hk
      rw [ha] at hp
      exact absurd hp (hstay _)
    · exact hlive.past s hs (hroom s hs hk hr) ⟨hp, State.left_pos hs hk⟩

/-! ### Loops -/

section Loops

variable {go : Parser Bool} {f : State → Bool} {step : α → Parser (α × Bool)}

/-- A loop whose turns leave fewer bytes ahead. -/
theorem many (hgo : ∀ s, go s = (f s, s))
    (hstep : ∀ a s, s.token.Sound → f s = true → (∀ l ≤ s.left, R l) → s.Leads (step a s).2 ∧
      ((step a s).1.2 = true → f (step a s).2 = true → (step a s).2.left < s.left))
    (hn : ∀ l, R l → l + 1 < n) (a : α) : (many go step n a).Ends R Parser.never := by
  refine ⟨fun s hs hr => ?_, fun _ _ _ hp => hp.elim⟩
  have hbound := hn _ (hr _ (Nat.le_refl _))
  have hpos : 0 < n := by omega
  replace hbound : f s = true → s.left + 1 < n := fun _ => hbound
  clear hn
  -- while the loop goes on, the bytes ahead stay below the turns that are left
  induction n generalizing a s with
  | zero => omega
  | succ n ih =>
    show s.Leads ((if (go s).1 then _ else _ : Parser α) (go s).2).2
    rw [hgo]
    by_cases hf : f s = true
    · rw [if_pos hf]
      have hleft := hbound hf
      obtain ⟨hle, hlt⟩ := hstep a s hs hf hr
      show s.Leads ((if (step a s).1.2 then _ else _ : Parser α) (step a s).2).2
      by_cases hmore : (step a s).1.2 = true
      · rw [if_pos hmore]
        refine hle.trans (ih _ _ hle.sound (fun l hl => hr l (Nat.le_trans hl hle.left)) (by omega) fun hf' => ?_)
        have := hlt hmore hf'
        omega
      · rw [if_neg hmore]
        exact hle
    · rw [if_neg hf]
      exact .refl hs

/-- A loop that goes on at a token only, and not after a failure. -/
theorem manyAt (hgo : ∀ s, go s = (f s, s)) (hf : ∀ s, f s = true → s.token.kind ≠ .eof ∧ s.failed = false)
    (hstep : ∀ a, (step a).Ends R always) (hn : ∀ l, R l → l + 1 < n) (a : α) :
    (Parser.many go step n a).Ends R Parser.never := by
  refine many hgo (fun a s hs hfs hr => ⟨(hstep a).leads s hs hr, fun _ hfs' => ?_⟩) hn a
  rcases (hstep a).past s hs hr (State.left_pos hs (hf s hfs).1) with hfail | hlt
  · cases (hf _ hfs').2.symm.trans hfail
  · exact hlt

/-- A loop whose steps tell that they have passed a token. -/
theorem manyOnward (hgo : ∀ s, go s = (f s, s)) (hf : ∀ s, f s = true → s.failed = false)
    (hstep : ∀ a, (step a).Ends R onward) (hn : ∀ l, R l → l + 1 < n) (a : α) :
    (Parser.many go step n a).Ends R Parser.never := by
  refine many hgo (fun a s hs hfs hr => ⟨(hstep a).leads s hs hr, fun hmore hfs' => ?_⟩) hn a
  rcases (hstep a).past s hs hr hmore with hfail | hlt
  · cases (hf _ hfs').symm.trans hfail
  · exact hlt

end Loops

end Ends

/-! ### Tokens and faults -/

namespace Takes

theorem ends (hm : m.Takes R) : m.Ends R always where
  leads := hm.leads
  past s hs hr hpos := by
    have := hm.left s hs hr
    have : 0 < s.left := hpos
    exact .inr (by omega)

theorem weaken (hm : m.Takes S) (hR : ∀ l, R l → S l) : m.Takes R where
  leads s hs hr := hm.leads s hs fun l hl => hR l (hr l hl)
  left s hs hr := hm.left s hs fun l hl => hR l (hr l hl)

theorem seq (hm : m.Takes R) (hk : ∀ a, (k a).Ends R T) : (m >>= k).Takes R where
  leads s hs hr := (hm.ends.seq hk).leads s hs hr
  left s hs hr := by
    have hle := hm.leads s hs hr
    have hle' := (hk (m s).1).leads _ hle.sound fun l hl => hr l (Nat.le_trans hl hle.left)
    exact Nat.le_trans hle'.left (hm.left s hs hr)

theorem after (hm : m.Ends R P) (hk : ∀ a, (k a).Takes R) : (m >>= k).Takes R where
  leads s hs hr := (hm.seq fun a => (hk a).ends).leads s hs hr
  left s hs hr := by
    have hle := hm.leads s hs hr
    have hleft := (hk (m s).1).left _ hle.sound fun l hl => hr l (Nat.le_trans hl hle.left)
    exact Nat.le_trans hleft (Nat.sub_le_sub_right hle.left 1)

theorem option {b : Prop} [Decidable b] {m : Parser Unit} {P : Unit → Nat → Prop} {k : Unit → Parser β}
    (hm : m.Ends R P) (hk : (k ()).Takes R) : (if b then m >>= k else k ()).Takes R := by
  split
  · exact after hm fun _ => hk
  · exact hk

/-- Behind a token there is room for everything. -/
theorem room {s : State} (hm : m.Takes (Ahead n 8)) (hs : s.token.Sound) (hr : ∀ l ≤ s.left, Ahead n 8 l) :
    ∀ l ≤ (m s).2.left, Room n 8 l := by
  intro l hl
  have hahead : Room n 8 (s.left - 1) := hr s.left (Nat.le_refl _)
  have hleft := hm.left s hs hr
  unfold Room at *
  omega

theorem take (hm : m.Takes (Ahead n 8)) (hk : ∀ a, (k a).Ends (Room n 8) T) : (m >>= k).Takes (Ahead n 8) where
  leads s hs hr := by
    have hle := hm.leads s hs hr
    exact hle.trans ((hk _).leads _ hle.sound (hm.room hs hr))
  left s hs hr := by
    have hle' := (hk (m s).1).leads _ (hm.leads s hs hr).sound (hm.room hs hr)
    exact Nat.le_trans hle'.left (hm.left s hs hr)

/-- A step that goes on at a token only. -/
theorem onward {k : α → Parser (β × Bool)} (hm : m.Takes (Ahead n 8))
    (hk : ∀ a, (k a).Ends (Room n 8) fun r l => r.2 = true ∧ l = 0) : (m >>= k).Ends (Ahead n 8) onward where
  leads := (hm.take hk).leads
  past s hs hr hmore := by
    have hle := hm.leads s hs hr
    have hleft := (hm.take hk).left s hs hr
    rcases Nat.eq_zero_or_pos s.left with hzero | hpos
    · refine hle.trans_past ((hk _).past _ hle.sound (hm.room hs hr) ⟨hmore, ?_⟩)
      exact Nat.le_zero.1 (hzero ▸ hle.left)
    · exact .inr (by omega)

/-- A loop that is entered unless parsing has failed. -/
theorem manyOnward {go : Parser Bool} {step : α → Parser (α × Bool)} (hgo : ∀ s, go s = (!s.failed, s))
    (htakes : ∀ a, (step a).Takes R) (hstep : ∀ a, (step a).Ends R Parser.onward) (hn : ∀ l, R l → l + 1 < n)
    (a : α) : (many go step n a).Ends R always where
  leads := (Ends.manyOnward hgo (by simp) hstep hn a).leads
  past s hs hr hpos := by
    by_cases hfailed : s.failed = true
    · exact .inl (((Ends.manyOnward hgo (by simp) hstep hn a).leads s hs hr).failed hfailed)
    have hpos : 0 < s.left := hpos
    have hbound := hn _ (hr _ (Nat.le_refl _))
    have hle := (htakes a).leads s hs hr
    have hleft := (htakes a).left s hs hr
    refine .inr (Nat.lt_of_le_of_lt (Nat.le_trans ?_ hleft) (Nat.sub_lt hpos Nat.one_pos))
    cases n with
    | zero => omega
    | succ n =>
      show ((if (go s).1 then _ else _ : Parser α) (go s).2).2.left ≤ _
      rw [hgo, if_pos (by simpa using hfailed)]
      show ((if (step a s).1.2 then _ else _ : Parser α) (step a s).2).2.left ≤ _
      split
      · have hrest := Ends.manyOnward (R := fun l => R l ∧ l + 1 < n) hgo (by simp)
          (fun a => (hstep a).weaken fun _ => And.left) (fun _ => And.right) (step a s).1.1
        exact (hrest.leads _ hle.sound fun l hl => ⟨hr l (Nat.le_trans hl hle.left), by omega⟩).left
      · exact Nat.le_refl _

end Takes

theorem token_ends : token.Ends R never := .read _

theorem kind_ends : kind.Ends R never := .read _

theorem context_ends : context.Ends R never := .read _

theorem peek_ends : peek.Ends R never where
  leads s hs _ := by
    rw [run_peek]
    exact .refl hs
  past _ _ _ hp := hp.elim

theorem isWord_ends (w : String) : (isWord w).Ends R never := token_ends.seq fun _ => .done

theorem reportAt_ends (offset : Nat) (cause : Cause) : (reportAt offset cause).Ends R never where
  leads _ hs _ :=
    { sound := hs
      left := Nat.le_refl _
      faults := (List.prefix_append _ _).length_le
      starved := rfl }
  past _ _ _ hp := hp.elim

theorem report_ends (cause : Cause) : (report cause).Ends R never := token_ends.seq fun _ => reportAt_ends _ _

theorem unexpected_ends (t : Token) : (unexpected t).Ends R never := reportAt_ends _ _

theorem unexpectedHere_ends : unexpectedHere.Ends R never := token_ends.seq fun _ => unexpected_ends _

/-- Only what has been claimed is forgotten. -/
theorem claim_ends (f : State → Option Nat) :
    Ends (modify fun s => { s with unclaimed := f s } : Parser Unit) R never where
  leads _ hs _ := ⟨hs, Nat.le_refl _, Nat.le_refl _, rfl⟩
  past _ _ _ hp := hp.elim

theorem next_takes : next.Takes R where
  leads s hs _ :=
    { sound := Token.scan_sound _
      left := ((s.token.start.step_leads.trans hs.leads).trans (Token.leads_scan _)).left
      faults := (List.prefix_append _ _).length_le
      starved := rfl }
  left _ hs _ := Nat.le_trans (hs.leads.trans (Token.leads_scan _)).left (Cursor.left_step _)

theorem expect_takes (k : TokenKind) : (expect k).Takes R :=
  .after kind_ends fun _ => .option unexpectedHere_ends next_takes

theorem expect_ends (k : TokenKind) : (expect k).Ends R always := (expect_takes k).ends

theorem next_ends : next.Ends R always := next_takes.ends

theorem expectWord_ends (w : String) : (expectWord w).Ends R always :=
  (isWord_ends w).seq fun _ => .option unexpectedHere_ends next_ends

theorem accept_ends (k : TokenKind) : (accept k).Ends R never :=
  kind_ends.seq fun _ => .ite (fun _ => next_ends.seq fun _ => .done) fun _ => .done

theorem accept_of_kind {s : State} {k : TokenKind} (h : s.token.kind = k) : accept k s = (true, (next s).2) := by
  show (if s.token.kind = k then _ else _ : Parser Bool) s = _
  rw [if_pos h]
  rfl

theorem accept_of_ne {s : State} {k : TokenKind} (h : s.token.kind ≠ k) : accept k s = (false, s) := by
  show (if s.token.kind = k then _ else _ : Parser Bool) s = _
  rw [if_neg h]
  rfl

/-- A token that is accepted is passed. -/
theorem accept_passes {k : TokenKind} (hk : k ≠ .eof) : (accept k).Ends R fun b _ => b = true where
  leads := (accept_ends k).leads
  past s hs hr hb := by
    by_cases hkind : s.token.kind = k
    · rw [accept_of_kind hkind]
      exact next_takes.ends.past s hs hr (State.left_pos hs (hkind ▸ hk))
    · rw [accept_of_ne hkind] at hb
      cases hb

/-- Behind a token that is accepted there is room for everything, and nothing else need be passed. -/
theorem Ends.acceptOr {k : TokenKind} {m m' : Parser β} (hk : k ≠ .eof) (hR : ∀ l, R l → Room n 0 l)
    (hm : m.Ends (Room n 8) T) (hm' : m'.Ends R past) :
    (accept k >>= fun b => if b = true then m else m').Ends R past := by
  have hyes (s : State) (hs : s.token.Sound) (hr : ∀ l ≤ s.left, R l) (hkind : s.token.kind = k) :
      s.Leads (m (next s).2).2 ∧ (m (next s).2).2.left < s.left := by
    have hpos := State.left_pos hs (hkind ▸ hk)
    have hahead : ∀ l ≤ s.left, Ahead n 8 l := fun l hl =>
      (Room.ahead (by decide) _ hpos (hR _ (hr _ (Nat.le_refl _)))).anti hl
    have htakes := next_takes.take fun _ => hm
    exact ⟨htakes.leads s hs hahead, Nat.lt_of_le_of_lt (htakes.left s hs hahead) (Nat.sub_lt hpos Nat.one_pos)⟩
  constructor
  · intro s hs hr
    rw [run_bind]
    by_cases hkind : s.token.kind = k
    · rw [accept_of_kind hkind]
      exact (hyes s hs hr hkind).1
    · rw [accept_of_ne hkind]
      exact hm'.leads s hs hr
  · intro s hs hr
    rw [run_bind]
    by_cases hkind : s.token.kind = k
    · rw [accept_of_kind hkind]
      exact fun _ => .inr (hyes s hs hr hkind).2
    · rw [accept_of_ne hkind]
      exact hm'.past s hs hr

theorem semicolon_ends : semicolon.Ends R never := by
  refine token_ends.seq fun t => .ite (fun _ => next_ends.never) fun _ => .ite (fun _ => ?_) fun _ => .done
  exact (unexpected_ends t).seq fun _ => next_ends.never

/-! ### Lists -/

theorem isOpen_live {closing : TokenKind} {s : State}
    (h : (s.token.kind ≠ closing && s.token.kind ≠ .eof && !s.failed) = true) :
    s.token.kind ≠ .eof ∧ s.failed = false := by
  simpa using (Bool.and_eq_true_iff.1 h).imp (fun h => (Bool.and_eq_true_iff.1 h).2) id

theorem itemList_ends {item : Parser α} (closing : TokenKind) (hitem : item.Ends R always)
    (hn : ∀ l, R l → l + 1 < n) : (itemList closing item n).Ends R never := by
  refine (Ends.manyAt (fun _ => rfl) (fun _ => isOpen_live) (fun as => ?_) hn []).seq fun _ => .done
  exact hitem.first fun _ => .done

theorem commaList_ends {item : Parser α} (closing : TokenKind) (hitem : item.Ends R always)
    (hn : ∀ l, R l → l + 1 < n) : (commaList closing item n).Ends R never := by
  refine (Ends.manyAt (fun _ => rfl) (fun _ => isOpen_live) (fun as => ?_) hn []).seq fun _ => .done
  exact hitem.first fun _ => kind_ends.seq fun _ => .option (expect_ends _) .done

/-! ### Names -/

theorem identifier_takes : identifier.Takes R := by
  refine .after token_ends fun t => .after context_ends fun c => ?_
  exact .option (unexpected_ends t) (next_takes.seq (T := never) fun _ => .done)

theorem identifier_ends : identifier.Ends R always := identifier_takes.ends

theorem isBindingName_ends : isBindingName.Ends R never := by
  refine token_ends.seq fun t => context_ends.seq fun c => ?_
  split <;> exact .done

theorem propertyName_ends : propertyName.Ends R always := by
  refine token_ends.seq fun t => .ite (fun _ => ?_) fun _ => ?_
  · exact (unexpected_ends t).seq fun _ => next_ends.first fun _ => .done
  · refine context_ends.seq fun c => .option (report_ends _) ?_
    exact next_ends.first fun _ => .done

theorem isModifier_ends (w : String) : (isModifier w).Ends R never := by
  refine (isWord_ends w).seq fun _ => .ite (fun _ => .done) fun _ => peek_ends.seq fun t => ?_
  split <;> exact .done

/-! ### Going back -/

/-- What goes on from a state further on. -/
theorem State.Leads.bind_ends {s s' : State} (h : s.Leads s') (hm : m.Ends R always) (hr : ∀ l ≤ s.left, R l) :
    s.Leads (m s').2 ∧ (always (m s').1 s.left → s.Past (m s').2) := by
  have hr' : ∀ l ≤ s'.left, R l := fun l hl => hr l (Nat.le_trans hl h.left)
  have hle := hm.leads s' h.sound hr'
  refine ⟨h.trans hle, fun hpos => ?_⟩
  rcases Nat.eq_zero_or_pos s'.left with hzero | hpos'
  · exact .inr (Nat.lt_of_le_of_lt hle.left (hzero ▸ hpos))
  · exact h.trans_past (hm.past s' h.sound hr' hpos')

/-- Back at a checkpoint everything is ahead again. -/
theorem State.Leads.restore {s s' : State} (h : s.Leads s') (hs : s.token.Sound) :
    s.Leads (restore s.checkpoint s').2 where
  sound := hs
  left := Nat.le_refl _
  faults := by
    show s.faults.length ≤ (s'.faults.take s.faults.length).length
    rw [List.length_take]
    exact Nat.le_min.2 ⟨Nat.le_refl _, h.faults⟩
  starved := h.starved

/-- A parser that goes on from what it has read, or back to where it began. -/
theorem Ends.attempt {k : Checkpoint → α → Parser β} (hm : m.Ends R P)
    (hk : ∀ s : State, s.token.Sound → (∀ l ≤ s.left, R l) → s.Leads (m s).2 →
      s.Leads (k s.checkpoint (m s).1 (m s).2).2 ∧
        (past (k s.checkpoint (m s).1 (m s).2).1 s.left → s.Past (k s.checkpoint (m s).1 (m s).2).2)) :
    (checkpoint >>= fun c => m >>= k c).Ends R past where
  leads s hs hr := (hk s hs hr (hm.leads s hs hr)).1
  past s hs hr := (hk s hs hr (hm.leads s hs hr)).2

/-- What was found has been read. -/
def found : Option α → Nat → Prop := fun r l => r.isSome = true ∧ 0 < l

theorem Takes.attempt {go : α → Parser (Option β)} {k : Checkpoint → α → Parser (Option β)}
    (hm : m.Takes (Ahead n 8)) (hgo : ∀ a, (go a).Ends (Room n 8) never)
    (hk : ∀ c a s, k c a s = go a s ∨ k c a s = (do restore c; return none : Parser (Option β)) s) :
    (checkpoint >>= fun c => m >>= k c).Ends (Ahead n 8) found := by
  refine .attempt hm.ends fun s hs hr hle => ?_
  rcases hk s.checkpoint (m s).1 (m s).2 with heq | heq
  · rw [heq]
    have hle' := (hgo (m s).1).leads _ hle.sound (hm.room hs hr)
    refine ⟨hle.trans hle', fun hfound => .inr ?_⟩
    have := hm.left s hs hr
    have := hle'.left
    have : 0 < s.left := hfound.2
    omega
  · rw [heq]
    exact ⟨hle.restore hs, fun hfound => nomatch hfound.1⟩

end Deadwood.Parser
