import Deadwood.Proofs.Lexemes
import Deadwood.Proofs.Tiling

/-!
# Quoted strings are read back

Wherever a quoted string stands in a text and whatever follows it, the token there is that string, and it ends with
the closing quote.  So no quoted string is the beginning of another.
-/

namespace Deadwood

open Text Cursor

namespace Cursor

theorem past_toList (o : Nat) (s : String) : past o s.toList = o + s.utf8ByteSize := by
  rw [past, byteCount_map_ofChar, ← String.toByteArray_ofList, String.ofList_toList, String.size_toByteArray]

/-- The place after a beginning of a text. -/
theorem place_append (a b : String) : place (a ++ b) a.utf8ByteSize = ofChars a.utf8ByteSize b.toList := by
  have hsize : a.utf8ByteSize = byteCount (a.toList.map Glyph.ofChar) := by
    rw [← Nat.zero_add a.utf8ByteSize, ← past_toList 0 a, past, Nat.zero_add]
  rw [place, ofString, String.toList_append, List.map_append, hsize, skipBytes, skipBytes_go_passed, Nat.zero_add]
  rfl

end Cursor

theorem solid_quote (value : String) (cs : List Char) : Solid ((quote value).toList ++ cs) := by
  rw [quote, String.toList_ofList]
  exact solid_cons rfl rfl (by decide) (by decide)

namespace Token

/-- A quoted string is one string token, in which no fault is found. -/
theorem scan_quote (before value after : String) :
    ∃ t, scan (place (before ++ quote value ++ after) before.utf8ByteSize) = (t, []) ∧
      t.kind = .string ∧ t.value = value ∧ t.lexeme = quote value ∧
      t.start = place (before ++ quote value ++ after) before.utf8ByteSize ∧
      t.finish = place (before ++ quote value ++ after) (before ++ quote value).utf8ByteSize := by
  rw [place_append (before ++ quote value) after, String.append_assoc, place_append before, String.toList_append]
  have hstands : (Lexeme.string value).Stands after.toList := stands_string value
  obtain ⟨t, hscan, ⟨hkind, hvalue, hlexeme⟩, -, hfinish⟩ := hstands.scan before.utf8ByteSize
  rw [Lexeme.text] at hscan hfinish
  refine ⟨t, hscan, hkind, hvalue, hlexeme, ?_, ?_⟩
  · -- No gap is skipped in front of a quote.
    have hread := scanAt_readAt false (ofChars before.utf8ByteSize ((quote value).toList ++ after.toList))
    rw [← scan_of_solid (solid_quote value after.toList), hscan] at hread
    exact hread.start
  · rw [hfinish, String.utf8ByteSize_append, ← past_toList]

end Token

/-- No quoted string is the beginning of another. -/
theorem quote_append_inj {v w : String} {cs ds : List Char} (h : (quote v).toList ++ cs = (quote w).toList ++ ds) :
    v = w ∧ cs = ds := by
  have hv : (Lexeme.string v).Stands cs := stands_string v
  have hw : (Lexeme.string w).Stands ds := stands_string w
  obtain ⟨t, hscan, ⟨-, hvalue, -⟩, -⟩ := hv.scan 0
  obtain ⟨t', hscan', ⟨-, hvalue', -⟩, -⟩ := hw.scan 0
  have hsame : (t, []) = (t', []) :=
    hscan.symm.trans ((congrArg (fun text => Token.scan (ofChars 0 text)) h).trans hscan')
  have hvw : v = w := by rw [← hvalue, (Prod.mk.inj hsame).1, hvalue']
  subst hvw
  exact ⟨rfl, List.append_cancel_left h⟩

end Deadwood
