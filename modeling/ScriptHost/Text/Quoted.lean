import ScriptHost.Text.Unprintable
/-!
# Quoted text in diagnostics

`quotedForDiagnostics` writes a text between double quotes so that each character can be told:
the quote and the backslash are escaped, a line feed, carriage return, tab and the null
character have short escapes, and any other unprintable character is written `\u` with its
hexadecimal number in braces, without leading zeros.
-/
namespace ScriptHost

def diagnosticChar (c : Char) : List Char :=
  match c with
  | '"' => ['\\', '"']
  | '\\' => ['\\', '\\']
  | '\n' => ['\\', 'n']
  | '\r' => ['\\', 'r']
  | '\t' => ['\\', 't']
  | c =>
    if c.toNat = 0 then ['\\', '0']
    else if Text.isUnprintable c then
      ['\\', 'u', '\x7b'] ++ Nat.toDigits 16 c.toNat ++ ['\x7d']
    else [c]

/-- A text as a diagnostic shows it. -/
def quotedForDiagnostics (s : String) : String :=
  String.ofList ('"' :: s.toList.flatMap diagnosticChar ++ ['"'])

end ScriptHost
