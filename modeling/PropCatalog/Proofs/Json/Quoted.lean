import PropCatalog.Json.Token
import Mathlib.Tactic.Common

/-! A text that is put in quotes is read back as it was. -/

namespace PropCatalog.Json

open PropCatalog.Number (digitValue)

/-- Each of the sixteen digits is a hexadecimal digit, with its own value. -/
theorem hexDigit_reads (value : Nat) (small : value < 16) :
    isHexadecimal (hexDigit value) = true ∧ digitValue (hexDigit value) = value := by
  -- There are sixteen of them.
  revert value
  decide

/-- The digits of a control character spell that character. -/
theorem codeUnit?_hexDigits {c : Char} (control : c.toNat < 0x20) :
    codeUnit? ['0', '0', hexDigit (c.toNat / 16), hexDigit (c.toNat % 16)] = some (.char c) := by
  -- Both digits are read back, and the code below 0x20 is no half of a pair.
  obtain ⟨high, highValue⟩ := hexDigit_reads (c.toNat / 16) (by omega)
  obtain ⟨low, lowValue⟩ := hexDigit_reads (c.toNat % 16) (by omega)
  have zero : isHexadecimal '0' = true ∧ digitValue '0' = 0 := hexDigit_reads 0 (by omega)
  have code : 16 * (c.toNat / 16) + c.toNat % 16 = c.toNat := by omega
  have noHalf : ¬ 0xD800 ≤ c.toNat := by omega
  simp [codeUnit?, high, highValue, low, lowValue, zero.1, zero.2, code, noHalf]

/-- A character that needs no escape spells itself, whatever follows. -/
theorem pieces?_plain {c : Char} (noQuote : c ≠ '\x22') (noSlash : c ≠ '\\')
    (printable : ¬ c.toNat < 0x20) (rest : List Char) :
    pieces? (c :: rest) =
      (pieces? rest).map fun (pieces, after) => (.char c :: pieces, after) := by
  -- Only the last case of the reading applies, and it lets the character pass.
  rw [pieces?.eq_def]
  split
  case h_5 =>
    rename_i other _ _ _ _ same
    obtain ⟨rfl, rfl⟩ := List.cons.inj same
    simp [printable, noSlash]
  all_goals simp_all

/-- A character as it stands in quotes spells that character, whatever follows. -/
theorem pieces?_escape (c : Char) (rest : List Char) :
    pieces? (escape c ++ rest) =
      (pieces? rest).map fun (pieces, after) => (.char c :: pieces, after) := by
  -- Seven characters have an escape of their own.
  unfold escape
  split
  iterate 7 rfl
  -- Any other control character is written by its code, and the rest stands for itself.
  · rename_i noQuote noSlash _ _ _ _ _
    split
    · rename_i control
      simp [pieces?, codeUnit?_hexDigits control]
    · rename_i printable
      exact pieces?_plain noQuote noSlash printable rest

/-- A text in quotes spells its own characters, up to the closing quote. -/
theorem pieces?_escaped (text rest : List Char) :
    pieces? (text.flatMap escape ++ '\x22' :: rest) = some (text.map Piece.char, rest) := by
  -- Character by character, the escape is undone up to the quote behind the text.
  induction text with
  | nil => rfl
  | cons c text ih =>
    rw [List.flatMap_cons, List.append_assoc, pieces?_escape, ih]
    rfl

/-- Characters without halves of surrogate pairs are the text. -/
theorem joinHalves?_chars (text : List Char) : joinHalves? (text.map Piece.char) = some text := by
  -- No character waits for the other half of a pair.
  induction text with
  | nil => rfl
  | cons c text ih => simp [joinHalves?, ih]

/-- The first token of a quoted text is that text. -/
theorem token?_quoted (text rest : List Char) :
    token? (quoted text ++ rest) = some (.string (some text), rest) := by
  -- The quote opens the text, and what it holds is read up to the closing one.
  have body : quoted text ++ rest = '\x22' :: (text.flatMap escape ++ '\x22' :: rest) := by
    simp [quoted]
  rw [body]
  simp [token?, pieces?_escaped, joinHalves?_chars]

end PropCatalog.Json
