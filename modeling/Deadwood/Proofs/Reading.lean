import Deadwood.Proofs.Formulas
import Deadwood.Proofs.Yields

/-!
# Reading lexemes

A token reads a list of lexemes when it and the tokens after it show them, on one line and without a fault,
up to the end of the text.  What a parser does on a formula is said in terms of the lexemes that its token
reads before and after.
-/

namespace Deadwood

namespace Token

/-- The token tells a parser what the lexeme says. -/
def Shows (t : Token) : Lexeme → Prop
  | .word w => t.kind = (Lexeme.word w).kind ∧ t.value = w ∧ t.lexeme = w
  | .number digits => t.kind = .number ∧ t.number = numberOf digits ∧ t.lexeme = digits
  | .string value => t.kind = .string ∧ t.value = value ∧ t.lexeme = Text.quote value
  | .sign k => t.kind = k

/-- The tokens from this one on show the lexemes, and then the text ends. -/
def Reads : Token → List Lexeme → Prop
  | t, [] => t.kind = .eof
  | t, l :: ls => t.Shows l ∧ t.onNewLine = false ∧ (scan t.finish).2 = [] ∧ (scan t.finish).1.Reads ls

theorem Shows.kind {t : Token} {l : Lexeme} (h : t.Shows l) : t.kind = l.kind := by
  cases l with
  | word | number | string => exact h.1
  | sign => exact h

end Token

/-- The kind of the token that shows the first of the lexemes. -/
def Lexeme.headKind (ls : List Lexeme) : TokenKind := (ls.head?.map Lexeme.kind).getD .eof

@[simp] theorem Lexeme.headKind_nil : headKind [] = .eof := rfl

@[simp] theorem Lexeme.headKind_cons (l : Lexeme) (ls : List Lexeme) : headKind (l :: ls) = l.kind := rfl

@[simp] theorem Lexeme.kind_sign (k : TokenKind) : (sign k).kind = k := rfl

theorem Lexeme.headKind_append {ls : List Lexeme} (h : ls ≠ []) (rest : List Lexeme) :
    headKind (ls ++ rest) = headKind ls := by
  cases ls with
  | nil => exact absurd rfl h
  | cons => rfl

theorem Token.Reads.kind {t : Token} {ls : List Lexeme} (h : t.Reads ls) : t.kind = Lexeme.headKind ls := by
  cases ls with
  | nil => exact h
  | cons => exact h.1.kind

namespace Parser

/-- What a parser remembers of its way to a token. -/
structure Trail where
  prevEnd : Nat
  starved : Bool

/-- The state of a parser in front of a token at the top level, where nothing was found so far. -/
def State.before (t : Token) (r : Trail) : State where
  token := t
  prevEnd := r.prevEnd
  scopes := { inner := { allowAwait := true } }
  unclaimed := none
  faults := []
  starved := r.starved

variable {α β : Type} {m : Parser α} {k : α → Parser β} {a : α} {b : β} {ls mid rest : List Lexeme}

/-- In front of the lexemes `ls` the parser gives `a` and goes on to `rest`, and finds no fault. -/
def Gives (m : Parser α) (ls : List Lexeme) (a : α) (rest : List Lexeme) : Prop :=
  ∀ t s, t.Reads ls → ∃ t' s', m (.before t s) = (a, .before t' s') ∧ t'.Reads rest

namespace Gives

theorem pure : Gives (pure a) ls a ls := fun t s ht => ⟨t, s, rfl, ht⟩

theorem bind (hm : Gives m ls a mid) (hk : Gives (k a) mid b rest) : Gives (m >>= k) ls b rest := by
  intro t s ht
  obtain ⟨t₁, s₁, h₁, ht₁⟩ := hm t s ht
  obtain ⟨t₂, s₂, h₂, ht₂⟩ := hk t₁ s₁ ht₁
  exact ⟨t₂, s₂, by rw [run_bind, h₁, h₂], ht₂⟩

/-- The parser looks at its state first. -/
theorem look {k : State → Parser β} (hk : ∀ t s, t.Reads ls → Gives (k (.before t s)) ls b rest) :
    Gives (get >>= k) ls b rest :=
  fun t s ht => hk t s ht t s ht

theorem token {k : Token → Parser β} (hk : ∀ t, t.Reads ls → Gives (k t) ls b rest) :
    Gives (Parser.token >>= k) ls b rest :=
  fun t s ht => hk t ht t s ht

theorem kind : Gives Parser.kind ls (Lexeme.headKind ls) ls :=
  fun t s ht => ⟨t, s, by rw [← ht.kind]; rfl, ht⟩

theorem context : Gives Parser.context ls { allowAwait := true } ls := fun t s ht => ⟨t, s, rfl, ht⟩

theorem goOn : Gives (do return !(← failed)) ls true ls := fun t s ht => ⟨t, s, rfl, ht⟩

theorem opened {closing : TokenKind} (h : Lexeme.headKind ls ≠ closing) (he : Lexeme.headKind ls ≠ .eof) :
    Gives (isOpen closing) ls true ls := by
  intro t s ht
  rw [← ht.kind] at h he
  have hrun : isOpen closing (.before t s) =
      (decide (t.kind ≠ closing) && decide (t.kind ≠ .eof) && true, .before t s) := rfl
  exact ⟨t, s, by rw [hrun, decide_eq_true h, decide_eq_true he]; rfl, ht⟩

theorem closed {closing : TokenKind} (h : Lexeme.headKind ls = closing) : Gives (isOpen closing) ls false ls := by
  intro t s ht
  have hrun : isOpen closing (.before t s) =
      (decide (t.kind ≠ closing) && decide (t.kind ≠ .eof) && true, .before t s) := rfl
  exact ⟨t, s, by rw [hrun, decide_eq_false fun hne => hne (ht.kind.trans h)]; rfl, ht⟩

theorem next {l : Lexeme} : Gives Parser.next (l :: ls) () ls := by
  intro t s ht
  refine ⟨(Token.scan t.finish).1, { s with prevEnd := t.finish.offset }, ?_, ht.2.2.2⟩
  have hf : (Token.scan t.finish).2 = [] := ht.2.2.1
  show ((), _) = ((), _)
  simp only [State.before, hf, List.append_nil]

theorem peek {l : Lexeme} {k : Token → Parser β} (hk : ∀ t, t.Reads ls → Gives (k t) (l :: ls) b rest) :
    Gives (Parser.peek >>= k) (l :: ls) b rest := by
  intro t s ht
  rw [run_bind, run_peek]
  exact hk _ ht.2.2.2 t s ht

section Branches

variable {c : Prop} [Decidable c] {n : Parser α}

theorem yes (hc : c) (hm : Gives m ls a rest) : Gives (if c then m else n) ls a rest := by
  rwa [if_pos hc]

theorem no (hc : ¬ c) (hn : Gives n ls a rest) : Gives (if c then m else n) ls a rest := by
  rwa [if_neg hc]

end Branches

theorem expect {k : TokenKind} : Gives (expect k) (.sign k :: ls) () ls :=
  .bind .kind (.no (fun h => h rfl) .next)

theorem accept {k : TokenKind} {l : Lexeme} (h : l.kind = k) : Gives (accept k) (l :: ls) true ls :=
  .bind .kind (.yes h (.bind .next .pure))

theorem pass {k : TokenKind} (h : Lexeme.headKind ls ≠ k) : Gives (Parser.accept k) ls false ls :=
  .bind .kind (.no h .pure)

theorem withIn (hm : Gives m ls a rest) : Gives (Parser.withIn m) ls a rest := by
  intro t s ht
  obtain ⟨t', s', h, ht'⟩ := hm t s ht
  have hrun : Parser.withIn m (.before t s) =
      ((m (.before t s)).1, (changeScopes (.change (Setting.allowIn.put true)) (m (.before t s)).2).2) := rfl
  exact ⟨t', s', by rw [hrun, h]; rfl, ht'⟩

/-! ### Loops -/

section Loops

variable {go : Parser Bool} {step : α → Parser (α × Bool)} {a' : α}

theorem stop (hgo : Gives go ls false ls) (n : Nat) : Gives (many go step n a) ls a ls := by
  cases n with
  | zero => exact fun t s ht => ⟨t, { s with starved := true }, rfl, ht⟩
  | succ n => exact .bind hgo .pure

theorem last {n : Nat} (hn : 0 < n) (hgo : Gives go ls true ls) (hstep : Gives (step a) ls (a', false) rest) :
    Gives (many go step n a) ls a' rest := by
  obtain ⟨n, rfl⟩ := Nat.exists_eq_succ_of_ne_zero (Nat.ne_of_gt hn)
  exact .bind hgo (.bind hstep .pure)

theorem more {n : Nat} {v : α} (hn : 0 < n) (hgo : Gives go ls true ls)
    (hstep : Gives (step a) ls (a', true) mid) (hloop : Gives (many go step (n - 1) a') mid v rest) :
    Gives (many go step n a) ls v rest := by
  obtain ⟨n, rfl⟩ := Nat.exists_eq_succ_of_ne_zero (Nat.ne_of_gt hn)
  exact .bind hgo (.bind hstep hloop)

end Loops

/-! ### Names -/

variable {l : Lexeme} {w : String} {k : Bool → Parser β}

theorem isWord (hw : TokenKind.ofWord? w = none) (v : String) (hk : Gives (k (w = v)) (.word w :: ls) b rest) :
    Gives (Parser.isWord v >>= k) (.word w :: ls) b rest := by
  intro t s ht
  obtain ⟨hkind, hv, hl⟩ := ht.1
  have hrun : Parser.isWord v (.before t s) =
      (decide (t.kind = .name) && decide (t.value = v) && decide (t.lexeme = v), .before t s) := rfl
  rw [hkind, hv, hl, Lexeme.kind, hw] at hrun
  simp only [Option.getD_none, decide_true, Bool.true_and, Bool.and_self] at hrun
  rw [run_bind, hrun]
  exact hk t s ht

theorem identifier (hw : TokenKind.ofWord? w = none) :
    Gives identifier (.word w :: ls) { name := w } ls := by
  refine .token fun t ht => .bind .context (.no ?_ (.bind .next ?_))
  · have hkind : t.kind = .name := by rw [ht.kind, Lexeme.headKind_cons, Lexeme.kind, hw]; rfl
    simp [hkind]
  · rw [ht.1.2.1]
    exact .pure

end Gives

end Parser

end Deadwood
