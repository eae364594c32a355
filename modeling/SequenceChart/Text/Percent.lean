namespace SequenceChart.Text

/-- The characters that stand for themselves in the address of a font: Latin letters, decimal
    digits and five marks. -/
def isUnreserved (n : Nat) : Bool :=
  (65 ≤ n && n ≤ 90) || (97 ≤ n && n ≤ 122) || (48 ≤ n && n ≤ 57) ||
    n == 95 || n == 46 || n == 45 || n == 126 || n == 47

/-- A hexadecimal digit with capital letters. -/
def capitalHexDigit (n : Nat) : Char :=
  if n < 10 then Char.ofNat (48 + n) else Char.ofNat (55 + n)

/-- A byte of an address: itself if it is unreserved, else a percent sign and two digits. -/
def percentByte (byte : Nat) : List Char :=
  if isUnreserved byte then [Char.ofNat byte]
  else ['%', capitalHexDigit (byte / 16), capitalHexDigit (byte % 16)]

/-- A text with every byte of its UTF-8 form made safe for an address. -/
def percentEncoded (text : String) : String :=
  String.ofList (text.toUTF8.toList.flatMap fun byte => percentByte byte.toNat)

end SequenceChart.Text
