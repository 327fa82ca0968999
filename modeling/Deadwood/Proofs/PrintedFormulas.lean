import Deadwood.Proofs.Lexemes

/-!
# The text of formulas

The text that is printed for a formula spells its lexemes, whatever stands after it, as long as that does not
go on with its last token.
-/

namespace Deadwood

open Text Cursor Print
open Lexeme (enclose)

/-- No name goes on with the characters, and no number does unless a dot is taken. -/
def Ends (dot : Bool) (cs : List Char) : Prop :=
  ∀ d ∈ cs.head?, isNamePart d = false ∧ d ≠ '\\' ∧ (dot = false → d ≠ '.')

/-- The text spells the lexemes in front of characters that do not go on with it. -/
def Writes (dot : Bool) (s : String) (ls : List Lexeme) : Prop :=
  ∀ cs ms, Ends dot cs → Spells cs ms → Spells (s.toList ++ cs) (ls ++ ms)

variable {dot b : Bool} {c : Char} {cs : List Char} {s t : String} {l : Lexeme} {ls ms : List Lexeme}

theorem Ends.of_mem (h : c ∈ [' ', '\n', ')', ']', ',', ';', '(', '[', '+', '-']) : Ends dot (c :: cs) := by
  simp only [List.mem_cons, List.not_mem_nil, or_false] at h
  rintro _ ⟨⟩
  obtain rfl | rfl | rfl | rfl | rfl | rfl | rfl | rfl | rfl | rfl := h <;>
    exact ⟨by decide, by decide, fun _ => by decide⟩

theorem Ends.before_dot : Ends true ('.' :: cs) := by
  rintro _ ⟨⟩
  exact ⟨by decide, by decide, nofun⟩

theorem Ends.name (h : Ends dot cs) : EndsName cs := fun d hd => ⟨(h d hd).1, (h d hd).2.1⟩

theorem Ends.number (h : Ends false cs) : EndsNumber cs := fun d hd => ⟨(h d hd).1, (h d hd).2.2 rfl⟩

theorem Spells.sign {k : TokenKind} (hk : (Lexeme.sign k).Stands cs) (h : Spells cs ms) :
    Spells (k.text.toList ++ cs) (.sign k :: ms) := .lexeme (l := .sign k) hk h

/-- A mark of one character is spelled in front of any others. -/
theorem Spells.mark (k : TokenKind) (hk : k ∈ [.leftParen, .rightParen, .leftBracket, .rightBracket, .comma,
    .semicolon, .colon, .increment, .decrement]) (htext : k.text.toList = [c]) (h : Spells cs ms) :
    Spells (c :: cs) (.sign k :: ms) := by
  have hsign := Spells.sign (stands_mark hk) h
  rwa [htext] at hsign

namespace Writes

theorem weaken (h : Writes true s ls) : Writes dot s ls :=
  fun cs ms hcs => h cs ms fun d hd => ⟨(hcs d hd).1, (hcs d hd).2.1, nofun⟩

theorem empty : Writes dot "" [] := fun _ _ _ hms => hms

theorem of_stands (h : ∀ cs, Ends dot cs → l.Stands cs) : Writes dot l.text [l] :=
  fun cs _ hcs hms => .lexeme (h cs hcs) hms

theorem word (h : isName s) : Writes dot s [.word s] :=
  of_stands (l := .word s) fun _ hcs => stands_word h hcs.name

theorem number (h : isDigits s) : Writes false s [.number s] :=
  of_stands (l := .number s) fun _ hcs => stands_number h hcs.number

theorem string (value : String) : Writes dot (quote value) [.string value] :=
  of_stands (l := .string value) fun _ _ => stands_string value

theorem enclosed (h : Writes false s ls) : Writes dot ("(" ++ s ++ ")") (enclose true ls) := by
  intro cs ms _ hms
  have hclose : Spells (')' :: cs) (.sign .rightParen :: ms) := .mark _ (by decide) rfl hms
  have hinner : Spells (s.toList ++ ')' :: cs) (ls ++ .sign .rightParen :: ms) := h _ _ (.of_mem (by decide)) hclose
  have hopen := hinner.mark .leftParen (by decide) (c := '(') rfl
  simpa [enclose] using hopen

end Writes

/-! ### Levels -/

namespace Expr

/-- Printing where a level is asked for puts parentheses around what is printed otherwise. -/
theorem print_eq (e : Expr) (d level : Nat) : e.print d level = parens (e.level < level) (e.print d 0) := by
  cases e
  case template tag _ _ => cases tag <;> rfl
  case yield arg _ => cases arg <;> rfl
  all_goals rfl

theorem print_parens (e : Expr) (b : Bool) (d level : Nat) :
    (if b then "(" ++ e.print d Level.sequence ++ ")" else e.print d level) =
      parens (b || e.level < level) (e.print d 0) := by
  cases b with
  | false => exact e.print_eq d level
  | true => rfl

section Text

variable (d : Nat)

theorem print_array (es : List Expr) : (Expr.array es).print d 0 =
    "[" ++ (commas (Expr.printList d Level.assignment es) ++
      ((if es.getLast?.any Expr.isHole then "," else "") ++ "]")) := by
  simp only [← String.append_assoc]
  rfl

theorem print_unary (op : UnaryOp) (e : Expr) : (Expr.unary op e).print d 0 =
    op.text ++ ((if 1 < op.text.length || op.fuses e then " " else "") ++ e.print d Level.unary) :=
  String.append_assoc

theorem print_binary (op : BinaryOp) (l r : Expr) : (Expr.binary op l r).print d 0 =
    l.print d (op.operandLevel l op.levels.1) ++
      (" " ++ (op.text ++ (" " ++ r.print d (op.operandLevel r op.levels.2)))) := by
  simp only [← String.append_assoc]
  rfl

theorem print_assign (op : AssignOp) (l r : Expr) : (Expr.assign op l r).print d 0 =
    l.print d Level.call ++ (" " ++ (op.text ++ (" " ++ r.print d Level.assignment))) := by
  simp only [← String.append_assoc]
  rfl

theorem print_cond (test yes no : Expr) : (Expr.cond test yes no).print d 0 =
    test.print d (Level.conditional + 1) ++ (" ? " ++ (yes.print d Level.assignment ++
      (" : " ++ no.print d Level.assignment))) := by
  simp only [← String.append_assoc]
  rfl

theorem print_call (callee : Expr) (args : List Expr) : (Expr.call callee args false).print d 0 =
    parens (callee.level < Level.call) (callee.print d 0) ++
      ("(" ++ (commas (Expr.printList d Level.assignment args) ++ ")")) := by
  have hprint : (Expr.call callee args false).print d 0 =
      callee.print d Level.call ++ "" ++ "(" ++ commas (Expr.printList d Level.assignment args) ++ ")" := rfl
  rw [hprint, String.append_empty, print_eq]
  simp only [String.append_assoc]

theorem print_new (callee : Expr) (args : List Expr) : (Expr.new callee args).print d 0 =
    "new " ++ (parens (callee.containsCall || callee.level < Level.call) (callee.print d 0) ++
      ("(" ++ (commas (Expr.printList d Level.assignment args) ++ ")"))) := by
  rw [← print_parens]
  simp only [← String.append_assoc]
  rfl

theorem print_member (o : Expr) (name : Ident) : (Expr.member o name false).print d 0 =
    parens (o.isBareInteger || o.level < Level.call) (o.print d 0) ++ ("." ++ name.name) := by
  rw [← print_parens, ← String.append_assoc]
  rfl

theorem print_index (o key : Expr) : (Expr.index o key false).print d 0 =
    parens (o.isBareInteger || o.level < Level.call) (o.print d 0) ++
      ("[" ++ (key.print d Level.sequence ++ "]")) := by
  have hprint : (Expr.index o key false).print d 0 =
      (if o.isBareInteger then "(" ++ o.print d Level.sequence ++ ")" else o.print d Level.call) ++ "" ++ "[" ++
        key.print d Level.sequence ++ "]" := rfl
  rw [hprint, String.append_empty, print_parens]
  simp only [String.append_assoc]

end Text

/-- Whether the text of an expression can stand in front of a dot. -/
def takesDot (e : Expr) : Bool := Level.call ≤ e.level && !e.isBareInteger

/-- The text of an expression spells its lexemes. -/
def Written (e : Expr) : Prop := ∀ d, Writes e.takesDot (e.print d 0) e.lexemes

namespace Written

variable {e : Expr}

theorem of_level (hl : e.level < Level.call) (h : ∀ d, Writes false (e.print d 0) e.lexemes) : e.Written := by
  intro d
  rw [takesDot, decide_eq_false (Nat.not_le_of_lt hl), Bool.false_and]
  exact h d

section

variable (h : e.Written)

include h

theorem parens {d : Nat} (hb : b = false → dot = true → e.takesDot) :
    Writes dot (Print.parens b (e.print d 0)) (enclose b e.lexemes) := by
  have hfalse : Writes false (e.print d 0) e.lexemes := by
    have hd := h d
    cases hdot : e.takesDot with
    | false => rwa [hdot] at hd
    | true =>
      rw [hdot] at hd
      exact hd.weaken
  cases b with
  | true => exact hfalse.enclosed
  | false =>
    cases dot with
    | false => exact hfalse
    | true =>
      have hd := h d
      rwa [hb rfl rfl] at hd

theorem at_level (d level : Nat) : Writes false (e.print d level) (enclose (e.level < level) e.lexemes) := by
  rw [print_eq]
  exact h.parens nofun

end

end Written

end Expr


/-! ### The first character -/

/-- The text begins with a character that is part of no operator before it. -/
def BeginsPlain (s : String) : Prop := ∃ c ∈ s.toList.head?, c ≠ '+' ∧ c ≠ '-' ∧ c ≠ '='

namespace BeginsPlain

theorem append (h : BeginsPlain s) (t : String) : BeginsPlain (s ++ t) := by
  obtain ⟨c, hc, hplain⟩ := h
  refine ⟨c, ?_, hplain⟩
  rw [String.toList_append, List.head?_append, hc]
  rfl

theorem of_isName (h : isName s) : BeginsPlain s := by
  obtain ⟨c, cs, hs, hc, -⟩ := isName_iff.1 h
  refine ⟨c, by rw [hs]; rfl, ?_⟩
  refine ⟨?_, ?_, ?_⟩ <;> (rintro rfl; exact absurd hc (by decide))

theorem of_isDigits (h : isDigits s) : BeginsPlain s := by
  obtain ⟨hne, hd⟩ : s.toList ≠ [] ∧ ∀ d ∈ s.toList, d.isDigit := by simpa [isDigits] using h
  obtain ⟨c, cs, hs⟩ := List.exists_cons_of_ne_nil hne
  have hc := hd c (hs ▸ List.mem_cons_self)
  refine ⟨c, by rw [hs]; rfl, ?_⟩
  refine ⟨?_, ?_, ?_⟩ <;> (rintro rfl; exact absurd hc (by decide))

theorem quoted (value : String) : BeginsPlain (quote value) :=
  ⟨'\x22', by rw [quote, String.toList_ofList]; rfl, by decide⟩

theorem parens (h : b = false → BeginsPlain s) : BeginsPlain (Print.parens b s) := by
  cases b with
  | false => exact h rfl
  | true => exact ⟨'(', by simp [Print.parens, String.toList_append], by decide⟩

end BeginsPlain

namespace Expr

/-- Whether the text of an expression begins with a prefix operator. -/
def beginsSigned : Expr → Bool
  | .unary .. => true
  | .update _ _ post => !post
  | _ => false

theorem beginsSigned_of_level {e : Expr} (h : Level.call ≤ e.level) : e.beginsSigned = false := by
  have hunary : ¬ Level.call ≤ Level.unary := by decide
  cases e with
  | unary => exact absurd h hunary
  | update op e post =>
    cases post with
    | false => exact absurd h hunary
    | true => rfl
  | _ => rfl

theorem level_binary (op : BinaryOp) (l r : Expr) : (Expr.binary op l r).level ≤ 14 := by
  show op.level ≤ 14
  cases op <;> decide

theorem level_le {e : Expr} {level : Nat} (h : decide (e.level < level) = false) : level ≤ e.level :=
  Nat.le_of_not_lt (of_decide_eq_false h)

theorem beginsPlain_parens {e : Expr} {d : Nat} {b : Bool}
    (ih : Level.unary ≤ e.level → e.beginsSigned = false → BeginsPlain (e.print d 0))
    (hb : b = false → Level.call ≤ e.level) : BeginsPlain (Print.parens b (e.print d 0)) :=
  .parens fun hb' => ih (Nat.le_trans (by decide) (hb hb')) (beginsSigned_of_level (hb hb'))

/-- By induction on the formula. -/
theorem Formula.beginsPlain {e : Expr} (h : e.Formula) (d : Nat) (hl : Level.unary ≤ e.level)
    (hs : e.beginsSigned = false) : BeginsPlain (e.print d 0) := by
  have hloose : ∀ n ≤ 14, ¬ Level.unary ≤ n := fun n hn h => absurd (Nat.le_trans h hn) (by decide)
  induction h with
  | ident id h =>
    simp only [Text.isVariable, Bool.and_eq_true] at h
    exact .of_isName h.1.1
  | this => exact .of_isName (s := "this") (by decide)
  | null => exact .of_isName (s := "null") (by decide)
  | bool b =>
    cases b with
    | false => exact .of_isName (s := "false") (by decide)
    | true => exact .of_isName (s := "true") (by decide)
  | string value => exact .quoted value
  | number digits h => exact .of_isDigits h
  | array es =>
    have h : BeginsPlain "[" := ⟨'[', rfl, by decide⟩
    rw [print_array]
    exact h.append _
  | unary => cases hs
  | @update op e post hf ht ih =>
    cases post with
    | false => cases hs
    | true =>
      have h : BeginsPlain (e.print d Level.call) := by
        rw [print_eq]
        exact beginsPlain_parens ih level_le
      exact h.append _
  | binary op l r => exact absurd hl (hloose _ (level_binary op _ _))
  | assign => exact absurd hl (hloose 1 (by decide))
  | cond => exact absurd hl (hloose 2 (by decide))
  | seq => exact absurd hl (hloose 0 (by decide))
  | call args hc h ih =>
    rw [print_call]
    exact (beginsPlain_parens ih level_le).append _
  | new args hc h ih =>
    have h : BeginsPlain "new " := ⟨'n', rfl, by decide⟩
    rw [print_new]
    exact h.append _
  | member name ho hn ih =>
    rw [print_member]
    exact (beginsPlain_parens ih fun hb => level_le (Bool.or_eq_false_iff.1 hb).2).append _
  | index ho hk ih =>
    rw [print_index]
    exact (beginsPlain_parens ih fun hb => level_le (Bool.or_eq_false_iff.1 hb).2).append _

/-- A unary operator that needs no space before its operand does not go on with the operand's text. -/
theorem Formula.endsBefore {e : Expr} (h : e.Formula) (d : Nat) {op : UnaryOp}
    (hgap : (decide (1 < op.text.length) || op.fuses e) = false) :
    ∃ c ∈ (e.print d Level.unary).toList.head?, op.endsBefore c := by
  obtain ⟨hlength, hfuses⟩ := Bool.or_eq_false_iff.1 hgap
  have hplain : ∀ {s}, BeginsPlain s → ∃ c ∈ s.toList.head?, op.endsBefore c := by
    rintro s ⟨c, hc, hplus, hminus, hequal⟩
    refine ⟨c, hc, ?_⟩
    cases op
    case typeof | void | delete => exact absurd hlength (by decide)
    all_goals simp [UnaryOp.endsBefore, hplus, hminus, hequal]
  rw [print_eq]
  cases hb : decide (e.level < Level.unary) with
  | true => exact hplain (.parens Bool.noConfusion)
  | false =>
    show ∃ c ∈ (e.print d 0).toList.head?, _
    cases hs : e.beginsSigned with
    | false => exact hplain (h.beginsPlain d (level_le hb) hs)
    | true =>
      have hhead : ∀ {k : TokenKind} {c} (s : String), c ∈ k.text.toList.head? → op.endsBefore c →
          ∃ c ∈ (k.text ++ s).toList.head?, op.endsBefore c := by
        intro k c s hc hop
        refine ⟨c, ?_, hop⟩
        rw [String.toList_append, List.head?_append, hc]
        rfl
      cases h with
      | unary op' =>
        rw [print_unary]
        cases op <;> cases op' <;> first
          | exact absurd hlength (by decide)
          | exact Bool.noConfusion hfuses
          | exact hhead _ rfl (by decide)
      | update op' post =>
        cases post with
        | true => cases hs
        | false =>
          cases op <;> cases op' <;> first
            | exact absurd hlength (by decide)
            | exact Bool.noConfusion hfuses
            | exact hhead _ rfl (by decide)
      | _ => cases hs

end Expr

/-! ### Formulas -/

namespace Expr.Written

variable {e l r : Expr}

theorem ident {id : Ident} (h : isVariable id.name) : (Expr.ident id).Written := by
  simp only [isVariable, Bool.and_eq_true] at h
  exact fun d => Writes.word h.1.1

theorem this : Expr.this.Written := fun _ => Writes.of_stands (l := .sign .thisKw) fun _ hcs =>
  stands_keyword (by decide) (by decide) hcs.name

theorem null : Expr.null.Written := fun _ => Writes.word (s := "null") (by decide)

theorem bool (b : Bool) : (Expr.bool b).Written := fun _ =>
  Writes.word (s := if b then "true" else "false") (by cases b <;> decide)

theorem string (value : String) : (Expr.string ⟨value, none⟩).Written := fun _ => Writes.string value

theorem number {digits : String} {value : Float} (h : isDigits digits) : (Expr.number value (some digits)).Written := by
  intro d
  have hbare : (Expr.number value (some digits)).isBareInteger := by
    have hd : ∀ c ∈ digits.toList, c.isDigit := (by simpa [isDigits] using h : _ ∧ _).2
    simp only [isBareInteger, Bool.not_eq_true', List.any_eq_false, Option.getD_some]
    intro c hc hmem
    have hmarks : (".eExXoObB".toList.all fun m => !m.isDigit) = true := by decide
    have hmark := List.all_eq_true.1 hmarks c (List.contains_iff_mem.1 hmem)
    rw [hd c hc] at hmark
    cases hmark
  rw [takesDot, hbare, Bool.not_true, Bool.and_false]
  exact Writes.number h

theorem unary (op : UnaryOp) (hf : e.Formula) (h : e.Written) : (Expr.unary op e).Written := by
  refine of_level (e := .unary op e) (Nat.lt_succ_of_lt (Nat.lt_succ_self 15)) fun d cs ms hcs hms => ?_
  have hoperand := h.at_level d Level.unary cs ms hcs hms
  rw [print_unary, String.toList_append, String.toList_append, List.append_assoc, List.append_assoc]
  cases hgap : decide (1 < op.text.length) || op.fuses e with
  | true =>
    have hspace : ∀ c ∈ (' ' :: ((e.print d Level.unary).toList ++ cs)).head?, op.endsBefore c := by
      rintro _ ⟨⟩
      cases op <;> decide
    exact .sign (op.stands hspace) (.space hoperand)
  | false =>
    obtain ⟨c, hc, hop⟩ := hf.endsBefore d hgap
    have hnext : ∀ c ∈ ((e.print d Level.unary).toList ++ cs).head?, op.endsBefore c := by
      intro c' hc'
      rw [List.head?_append, hc] at hc'
      cases hc'
      exact hop
    exact .sign (op.stands hnext) hoperand

theorem update_pre (op : UpdateOp) (h : e.Written) : (Expr.update op e false).Written := by
  refine of_level (e := .update op e false) (Nat.lt_succ_of_lt (Nat.lt_succ_self 15)) fun d cs ms hcs hms => ?_
  have hoperand := h.at_level d Level.unary cs ms hcs hms
  have hprint : (Expr.update op e false).print d 0 = op.text ++ e.print d Level.unary := rfl
  rw [hprint, String.toList_append, List.append_assoc]
  exact .sign (stands_mark (by cases op <;> decide)) hoperand

theorem update_post (op : UpdateOp) (h : e.Written) : (Expr.update op e true).Written := by
  refine of_level (e := .update op e true) (Nat.lt_succ_self 16) fun d cs ms hcs hms => ?_
  have hop : Spells (op.text.toList ++ cs) (.sign op.kind :: ms) :=
    .sign (stands_mark (by cases op <;> decide)) hms
  have hends : Ends false (op.text.toList ++ cs) := by cases op <;> exact Ends.of_mem (by decide)
  have hprint : (Expr.update op e true).print d 0 = e.print d Level.call ++ op.text := rfl
  have hwhole := h.at_level d Level.call _ _ hends hop
  simpa [hprint] using hwhole

theorem binary (op : BinaryOp) (hl : l.Written) (hr : r.Written) : (Expr.binary op l r).Written := by
  refine of_level (Nat.lt_of_le_of_lt (level_binary op l r) (by decide)) fun d cs ms hcs hms => ?_
  have hright := hr.at_level d (op.operandLevel r op.levels.2) cs ms hcs hms
  have hop : Spells (op.text.toList ++ ' ' :: _) (.sign op.kind :: _) := .sign op.stands (.space hright)
  have hwhole := hl.at_level d (op.operandLevel l op.levels.1) _ _ (.of_mem (by decide)) (.space hop)
  simpa [print_binary] using hwhole

theorem assign (op : AssignOp) (hl : l.Written) (hr : r.Written) : (Expr.assign op l r).Written := by
  refine of_level (e := .assign op l r) (by decide : 1 < 17) fun d cs ms hcs hms => ?_
  have hright := hr.at_level d Level.assignment cs ms hcs hms
  have hop : Spells (op.text.toList ++ ' ' :: _) (.sign op.kind :: _) := .sign op.stands (.space hright)
  have hwhole := hl.at_level d Level.call _ _ (.of_mem (by decide)) (.space hop)
  simpa [print_assign] using hwhole

theorem cond {test yes no : Expr} (ht : test.Written) (hy : yes.Written) (hn : no.Written) :
    (Expr.cond test yes no).Written := by
  refine of_level (e := .cond test yes no) (by decide : 2 < 17) fun d cs ms hcs hms => ?_
  have hno := hn.at_level d Level.assignment cs ms hcs hms
  have hcolon := (Spells.space hno).mark .colon (by decide) (c := ':') rfl
  have hyes := hy.at_level d Level.assignment _ _ (.of_mem (by decide)) (.space hcolon)
  have hquestion : Spells ('?' :: ' ' :: _) _ := .sign stands_question (.space hyes)
  have hwhole := ht.at_level d (Level.conditional + 1) _ _ (.of_mem (by decide)) (.space hquestion)
  simpa [print_cond] using hwhole

/-! ### Lists -/

/-- The elements of a list, where holes have no text. -/
theorem commas {es : List Expr} (h : ∀ e ∈ es, e.Written) (d : Nat) :
    Writes false (Print.commas (Expr.printList d Level.assignment es)) (Lexeme.commas (lexemesList es)) := by
  induction es with
  | nil => exact .empty
  | cons e es ih =>
    have he := (h e List.mem_cons_self).at_level d Level.assignment
    have ih := ih fun e he => h e (List.mem_cons_of_mem _ he)
    cases es with
    | nil => simpa [Print.commas, Expr.printList, Lexeme.commas] using he
    | cons e' es =>
      intro cs ms hcs hms
      have hcomma := (Spells.space (ih cs ms hcs hms)).mark .comma (by decide) (c := ',') rfl
      have hwhole := he _ _ (.of_mem (by decide)) hcomma
      simpa [Print.commas, Expr.printList, Lexeme.commas, String.intercalate_cons_cons] using hwhole

theorem hole : Expr.hole.Written := fun _ => .empty

theorem array {es : List Expr} (h : ∀ e ∈ es, e.Written) : (Expr.array es).Written := by
  refine fun d => Writes.weaken fun cs ms hcs hms => ?_
  have hclose := hms.mark .rightBracket (by decide) (c := ']') rfl
  have hwhole : Spells (((if es.getLast?.any isHole then "," else "") ++ "]").toList ++ cs)
      ((if es.getLast?.any isHole then [.sign .comma] else []) ++ .sign .rightBracket :: ms) := by
    split
    · exact hclose.mark .comma (by decide) rfl
    · exact hclose
  have hends : Ends false (((if es.getLast?.any isHole then "," else "") ++ "]").toList ++ cs) := by
    split <;> exact Ends.of_mem (by decide)
  have hopen := (commas h d _ _ hends hwhole).mark .leftBracket (by decide) (c := '[') rfl
  simpa [print_array] using hopen

/-- Arguments in parentheses. -/
theorem args {es : List Expr} (h : ∀ e ∈ es, e.Written) (d : Nat) (hms : Spells cs ms) :
    Spells ('(' :: ((Print.commas (Expr.printList d Level.assignment es)).toList ++ ')' :: cs))
      (.sign .leftParen :: (Lexeme.commas (lexemesList es) ++ .sign .rightParen :: ms)) :=
  have hclose := hms.mark .rightParen (by decide) (c := ')') rfl
  (commas h d _ _ (.of_mem (by decide)) hclose).mark .leftParen (by decide) rfl

theorem seq {es : List Expr} (h : ∀ e ∈ es, e.Written) : (Expr.seq es).Written :=
  of_level (e := .seq es) (by decide : 0 < 17) fun d => commas h d

/-! ### Calls and members -/

theorem call {es : List Expr} (hc : e.Written) (h : ∀ e ∈ es, e.Written) : (Expr.call e es false).Written := by
  refine fun d => Writes.weaken fun cs ms hcs hms => ?_
  have hcallee : Writes false (Print.parens (e.level < Level.call) (e.print d 0)) _ := hc.parens nofun
  have hwhole := hcallee _ _ (.of_mem (by decide)) (args h d hms)
  simpa [print_call] using hwhole

theorem new {es : List Expr} (hc : e.Written) (h : ∀ e ∈ es, e.Written) : (Expr.new e es).Written := by
  refine fun d => Writes.weaken fun cs ms hcs hms => ?_
  have hcallee : Writes false (Print.parens (e.containsCall || e.level < Level.call) (e.print d 0)) _ :=
    hc.parens nofun
  have hwhole := hcallee _ _ (.of_mem (by decide)) (args h d hms)
  have hkeyword : ∀ cs, (Lexeme.sign .newKw).Stands (' ' :: cs) := fun _ =>
    stands_keyword (by decide) (by decide) endsName_space
  have hnew : Spells ("new".toList ++ ' ' :: _) (.sign .newKw :: _) := (Spells.space hwhole).sign (hkeyword _)
  simpa [print_new] using hnew

theorem parens_before_dot (h : e.Written) (d : Nat) :
    Writes true (Print.parens (e.isBareInteger || e.level < Level.call) (e.print d 0))
      (enclose (e.isBareInteger || e.level < Level.call) e.lexemes) := by
  refine h.parens fun hb _ => ?_
  obtain ⟨hbare, hlevel⟩ := Bool.or_eq_false_iff.1 hb
  rw [takesDot, hbare, decide_eq_true (level_le hlevel)]
  rfl

theorem member {name : Ident} (ho : e.Written) (hname : isName name.name) : (Expr.member e name false).Written := by
  refine fun d => Writes.weaken fun cs ms hcs hms => ?_
  have hword := Writes.word hname cs ms hcs hms
  have hdot : Spells (".".toList ++ (name.name.toList ++ cs)) (.sign .dot :: .word name.name :: ms) := by
    refine .sign (stands_dot fun c hc => ?_) hword
    obtain ⟨c', cs', hname', hc', -⟩ := isName_iff.1 hname
    rw [hname'] at hc
    cases hc
    refine ⟨?_, ?_⟩
    · rw [isDigitIn_ten, Bool.eq_false_iff]
      intro hdigit
      rw [(solid_of_isDigit hdigit).2.2.2.2.2] at hc'
      cases hc'
    · rintro rfl
      exact absurd hc' (by decide)
  have hwhole := ho.parens_before_dot d _ _ .before_dot hdot
  simpa [print_member] using hwhole

theorem index {key : Expr} (ho : e.Written) (hk : key.Written) : (Expr.index e key false).Written := by
  refine fun d => Writes.weaken fun cs ms hcs hms => ?_
  have hclose := hms.mark .rightBracket (by decide) (c := ']') rfl
  have hkey := hk.at_level d Level.sequence _ _ (.of_mem (by decide)) hclose
  have hopen := hkey.mark .leftBracket (by decide) (c := '[') rfl
  have hwhole := ho.parens_before_dot d _ _ (.of_mem (by decide)) hopen
  simpa [print_index] using hwhole

end Expr.Written

/-- By induction on the formula. -/
theorem Expr.Formula.written {e : Expr} (h : e.Formula) : e.Written := by
  induction h with
  | ident id hv => exact .ident hv
  | this => exact .this
  | null => exact .null
  | bool b => exact .bool b
  | string value => exact .string value
  | number digits h => exact .number h
  | array es _ ih =>
    refine .array fun e he => ?_
    cases hh : e.isHole with
    | false => exact ih e he hh
    | true =>
      cases e with
      | hole => exact .hole
      | _ => cases hh
  | unary op h ih => exact ih.unary op h
  | update op post _ _ ih =>
    cases post with
    | false => exact ih.update_pre op
    | true => exact ih.update_post op
  | binary op _ _ ihl ihr => exact ihl.binary op ihr
  | assign op _ _ _ ihl ihr => exact ihl.assign op ihr
  | cond _ _ _ iht ihy ihn => exact iht.cond ihy ihn
  | seq es _ _ ih => exact .seq ih
  | call args _ _ ihc ih => exact ihc.call ih
  | new args _ _ ihc ih => exact ihc.new ih
  | member name _ hname ih => exact ih.member hname
  | index _ _ iho ihk => exact iho.index ihk

end Deadwood
