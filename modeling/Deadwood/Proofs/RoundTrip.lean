import Deadwood.Proofs.PrintedFormulas
import Deadwood.Proofs.ReadingFormulas
import Deadwood.Proofs.Scanning

/-!
# Formulas in a round trip

A program that consists of one formula is read back from its text.
-/

namespace Deadwood

open Lexeme (headKind enclose)

/-! ### The first two tokens -/

/-- If the lexemes begin with a name, it is a variable, and nothing after it makes it a label or the word
before an asynchronous function. -/
def Lexeme.Unlabelled (x : List Lexeme) : Prop :=
  headKind x = .name → ∃ w y, x = .word w :: y ∧ Text.isVariable w ∧ headKind y ≠ .colon ∧ headKind y ≠ .functionKw

namespace Lexeme.Unlabelled

variable {x : List Lexeme} {b : Bool}

theorem of_headKind (h : headKind x ≠ .name) : Unlabelled x := fun hx => absurd hx h

theorem enclose (h : Unlabelled x) : Unlabelled (Lexeme.enclose b x) := by
  cases b with
  | false => exact h
  | true => exact of_headKind nofun

theorem append (h : Unlabelled x) (hx : (headKind x).opens) {l : Lexeme}
    (hl : l.kind ≠ .colon ∧ l.kind ≠ .functionKw) (y : List Lexeme) : Unlabelled (x ++ l :: y) := by
  intro hname
  rw [Parser.headKind_append_of_opens hx] at hname
  obtain ⟨w, z, rfl, hw, hz⟩ := h hname
  refine ⟨w, z ++ l :: y, rfl, hw, ?_⟩
  cases z with
  | nil => exact hl
  | cons => exact hz

end Lexeme.Unlabelled

namespace Expr.Formula

open Lexeme (Unlabelled)

/-- By induction on the formula: a name at the start is followed by an operator, a bracket or nothing. -/
theorem unlabelled {e : Expr} (h : e.Formula) : Unlabelled e.lexemes := by
  have hop : ∀ {e' : Expr} {b : Bool} {k : TokenKind}, e'.Formula → Unlabelled e'.lexemes →
      k ≠ .colon ∧ k ≠ .functionKw → ∀ y, Unlabelled (enclose b e'.lexemes ++ .sign k :: y) :=
    fun h ih hk y => ih.enclose.append h.parses.opens_enclose (l := .sign _) hk y
  induction h with
  | ident id hv => exact fun _ => ⟨id.name, [], rfl, hv, nofun, nofun⟩
  | this | string | number | array | new => exact .of_headKind nofun
  | null => exact .of_headKind (by decide)
  | bool b => exact .of_headKind (by cases b <;> decide)
  | unary op => exact .of_headKind (by cases op <;> exact nofun)
  | update op post h _ ih =>
    cases post with
    | false => exact .of_headKind (by cases op <;> exact nofun)
    | true => exact hop h ih (by cases op <;> decide) []
  | binary op hl _ ih => exact hop hl ih (by cases op <;> decide) _
  | assign op hl _ _ ih => exact hop hl ih (by cases op <;> decide) _
  | cond ht _ _ ih => exact hop ht ih (by decide) _
  | seq es hes h ih =>
    obtain ⟨e, es, rfl⟩ := List.exists_cons_of_length_pos (Nat.lt_of_succ_lt hes)
    obtain ⟨e', es, rfl⟩ := List.exists_cons_of_length_pos (Nat.lt_of_succ_lt_succ hes)
    exact hop (h e List.mem_cons_self) (ih e List.mem_cons_self) (k := .comma) (by decide) _
  | call args hc _ ih => exact hop hc ih (by decide) _
  | member name ho _ ih => exact hop ho ih (by decide) _
  | index ho _ ih => exact hop ho ih (by decide) _

end Expr.Formula

/-! ### Statements -/

namespace Parser

variable {n : Nat} {ls rest : List Lexeme} {s : Stmt} {e : Expr}

theorem statement_upTo (hn : 0 < n) (h : Gives (statement (.upTo (n - 1))) ls s rest) :
    Gives (Sub.upTo n).statement ls s rest := by
  obtain ⟨n, rfl⟩ := Nat.exists_eq_succ_of_ne_zero (Nat.ne_of_gt hn)
  exact h

theorem item_upTo (hn : 0 < n) (h : Gives (item (.upTo (n - 1))) ls s rest) :
    Gives (Sub.upTo n).item ls s rest := by
  obtain ⟨n, rfl⟩ := Nat.exists_eq_succ_of_ne_zero (Nat.ne_of_gt hn)
  exact h

theorem semicolon_gives : Gives semicolon (.sign .semicolon :: rest) () rest :=
  .token fun _ ht => .yes ht.kind .next

theorem isLetDeclaration_gives {w : String} (hw : Text.isVariable w) :
    Gives isLetDeclaration (.word w :: rest) false (.word w :: rest) := by
  have hlet : w ≠ "let" := by
    rintro rfl
    exact absurd hw (by decide)
  refine .isWord (Expr.Formula.ofWord?_of_isVariable hw) "let" ?_
  rw [decide_eq_false hlet]
  exact .pure

end Parser

/-- The lexemes of a statement that consists of an expression. -/
def Expr.statementLexemes (e : Expr) : List Lexeme := e.lexemes ++ [.sign .semicolon]

namespace Expr.Formula

open Deadwood.Parser

variable {e : Expr} (h : e.Formula) {n : Nat}

include h

theorem opens_statementLexemes : (headKind e.statementLexemes).opens := by
  rw [statementLexemes, headKind_append_of_opens h.parses.opens]
  exact h.parses.opens

theorem unlabelled_statementLexemes : Lexeme.Unlabelled e.statementLexemes :=
  h.unlabelled.append h.parses.opens (l := .sign .semicolon) ⟨nofun, nofun⟩ []

theorem expressionStatement_gives (hn : 8 * e.statementLexemes.length + 6 ≤ n) :
    Gives (expressionStatement (.upTo n)) e.statementLexemes (.expr e.asRead) [] :=
  .bind (h.parses.phrase n _ hn rfl) (.bind semicolon_gives .pure)

theorem statement_gives (hn : 8 * e.statementLexemes.length + 6 ≤ n) :
    Gives (statement (.upTo n)) e.statementLexemes (.expr e.asRead) [] := by
  have hexpr := h.expressionStatement_gives hn
  have hname : headKind e.statementLexemes = .name →
      Gives (Parser.peek >>= fun t => if t.kind = .colon then labelledStatement (.upTo n) else
        expressionStatement (.upTo n)) e.statementLexemes (.expr e.asRead) [] := by
    intro hk
    obtain ⟨w, y, hy, -, hcolon, -⟩ := h.unlabelled_statementLexemes hk
    rw [hy] at hexpr ⊢
    exact .peek fun t ht => .no (ht.kind ▸ hcolon) hexpr
  have hopens := h.opens_statementLexemes
  refine .bind .kind ?_
  revert hname hopens
  generalize headKind e.statementLexemes = k
  intro hname hopens
  cases k <;> first | exact Bool.noConfusion hopens | exact hexpr | exact hname rfl

theorem declarationOrStatement_gives (hn : 8 * e.statementLexemes.length + 7 ≤ n) :
    Gives (declarationOrStatement (.upTo n)) e.statementLexemes (.expr e.asRead) [] := by
  have hstatement := statement_upTo (n := n) (by omega) (h.statement_gives (Nat.le_sub_of_add_le hn))
  have hname : headKind e.statementLexemes = .name →
      Gives (isLetDeclaration >>= fun b => if b then variableStatement (.upTo n) else
        isAsyncFunction >>= fun b => if b then (do
          next
          return .func (← function (.upTo n) true true)) else (Sub.upTo n).statement)
        e.statementLexemes (.expr e.asRead) [] := by
    intro hk
    obtain ⟨w, y, hy, hw, -, hf⟩ := h.unlabelled_statementLexemes hk
    rw [hy] at hstatement ⊢
    refine .bind (isLetDeclaration_gives hw) (.no Bool.false_ne_true ?_)
    exact .bind (isAsyncFunction_gives (ofWord?_of_isVariable hw) hf) (.no Bool.false_ne_true hstatement)
  have hopens := h.opens_statementLexemes
  refine .bind .kind ?_
  revert hname hopens
  generalize headKind e.statementLexemes = k
  intro hname hopens
  cases k <;> first | exact Bool.noConfusion hopens | exact hstatement | exact hname rfl

theorem item_gives (hn : 8 * e.statementLexemes.length + 7 ≤ n) :
    Gives (item (.upTo n)) e.statementLexemes (.expr e.asRead) [] :=
  .bind (h.declarationOrStatement_gives hn) (.look fun _ _ _ => .bind .pure .pure)

theorem moduleItem_gives (hn : 8 * e.statementLexemes.length + 8 ≤ n) :
    Gives (moduleItem (.upTo n)) e.statementLexemes (.expr e.asRead) [] := by
  have hitem := item_upTo (n := n) (by omega) (h.item_gives (Nat.le_sub_of_add_le hn))
  have hopens := h.opens_statementLexemes
  refine .bind .kind ?_
  revert hopens
  generalize headKind e.statementLexemes = k
  intro hopens
  cases k <;> first | exact Bool.noConfusion hopens | exact hitem

theorem program_gives (hn : 8 * e.statementLexemes.length + 8 ≤ n) :
    Gives (program (.upTo n)) e.statementLexemes [.expr e.asRead] [] := by
  have hopen : headKind e.statementLexemes ≠ .eof := by
    intro heof
    have hopens := h.opens_statementLexemes
    rw [heof] at hopens
    cases hopens
  have hstop : Gives (many (isOpen .eof) (fun items => do
      let a ← moduleItem (.upTo n)
      return (a :: items, true)) (n - 1) [.expr e.asRead]) [] [.expr e.asRead] [] := .stop (.closed rfl) _
  have hn' : 0 < n := by omega
  exact .bind (.more hn' (.opened hopen hopen) (.bind (h.moduleItem_gives hn) .pure) hstop) .pure

end Expr.Formula

/-! ### Programs -/

namespace Expr

theorem Formula.opensBrace {e : Expr} (h : e.Formula) : e.opensBrace = false := by
  induction h with
  | ident | this | null | bool | string | number | array | unary | new => rfl
  | update op post _ _ ih => cases post <;> simp [Expr.opensBrace, ih]
  | binary _ _ _ ih | assign _ _ _ _ ih | cond _ _ _ ih | call _ _ _ ih | member _ _ _ ih | index _ _ ih => exact ih
  | seq es hes _ ih =>
    obtain ⟨e, es, rfl⟩ := List.exists_cons_of_length_pos (Nat.lt_of_succ_lt hes)
    exact ih e List.mem_cons_self

/-- The text of a program of one formula spells its lexemes. -/
theorem Formula.spells {e : Expr} (h : e.Formula) :
    Spells (Program.print ⟨[.expr e]⟩).toList e.statementLexemes := by
  have hprint : Program.print ⟨[.expr e]⟩ = Print.parens e.opensBrace (e.print 0 Level.sequence) ++ ";" ++ "\n" :=
    String.empty_append
  have hsemicolon := Spells.finish.mark .semicolon (by decide) (c := ';') rfl
  have hwhole := h.written.at_level 0 Level.sequence _ _ (.of_mem (by decide)) hsemicolon
  have hlevel : decide (e.level < Level.sequence) = false := decide_eq_false (Nat.not_lt_zero _)
  rw [hlevel] at hwhole
  rw [hprint, h.opensBrace]
  simpa [Print.parens, Lexeme.enclose, statementLexemes] using hwhole

end Expr

theorem length_le_byteCount (gs : List Glyph) : gs.length ≤ byteCount gs := by
  induction gs with
  | nil => exact Nat.le_refl 0
  | cons g gs ih =>
    have hpos := g.size_pos
    rw [List.length_cons, byteCount_cons]
    omega

theorem length_toList_le (s : String) : s.toList.length ≤ s.utf8ByteSize := by
  have h := length_le_byteCount (Cursor.ofString s).rest
  rw [← Cursor.left_ofString, Cursor.left]
  rwa [Cursor.ofString, List.length_map] at h

/-- A formula that is printed is read back. -/
theorem Program.parse_print_formula {e : Expr} (h : e.Formula) :
    parse (print ⟨[.expr e]⟩) = .ok ⟨[.expr e.asRead]⟩ := by
  have hspells := h.spells
  generalize print ⟨[.expr e]⟩ = text at hspells
  obtain ⟨hfaults, hreads⟩ := hspells.reads 0
  have hlength : e.statementLexemes.length ≤ text.utf8ByteSize :=
    Nat.le_trans hspells.length_le (length_toList_le text)
  have hfuel : 8 * e.statementLexemes.length + 8 ≤ Parser.fuelFor text := by
    rw [Parser.fuelFor]
    omega
  have hstate : Parser.State.ofString text = .before (Token.scan (.ofString text)).1 ⟨0, false⟩ := by
    have hf : (Token.scan (.ofString text)).2 = [] := hfaults
    show Parser.State.mk _ _ _ _ (Token.scan (.ofString text)).2 _ = _
    rw [hf]
    rfl
  obtain ⟨t, trail, hrun, -⟩ := h.program_gives hfuel _ ⟨0, false⟩ hreads
  have hrun' : (Parser.program ⟨Parser.fuelFor text, Parser.runGoal (Parser.fuelFor text)⟩).run (.ofString text) =
      ([.expr e.asRead], .before t trail) := by
    rw [hstate]
    exact hrun
  rw [parse, hrun']
  rfl

/-- The text is `(- -a) ** [, "q"];`. -/
theorem Program.parse_print_formula_exponent :
    (Expr.binary .exponent (.unary .minus (.unary .minus (.ident { name := "a" })))
      (.array [.hole, .string ⟨"q", none⟩])).Formula ∧
    parse (print ⟨[.expr (.binary .exponent (.unary .minus (.unary .minus (.ident { name := "a" })))
      (.array [.hole, .string ⟨"q", none⟩]))]⟩) =
    .ok ⟨[.expr (.binary .exponent (.unary .minus (.unary .minus (.ident { name := "a" })))
      (.array [.hole, .string ⟨"q", some "\x22q\x22"⟩]))]⟩ := by
  have h : (Expr.binary .exponent (.unary .minus (.unary .minus (.ident { name := "a" })))
      (.array [.hole, .string ⟨"q", none⟩])).Formula := by
    refine .binary _ (.unary _ (.unary _ (.ident _ (by decide)))) (.array _ fun e he hhole => ?_)
    simp only [List.mem_cons, List.not_mem_nil, or_false] at he
    obtain rfl | rfl := he
    · cases hhole
    · exact .string "q"
  exact ⟨h, parse_print_formula h⟩

end Deadwood
