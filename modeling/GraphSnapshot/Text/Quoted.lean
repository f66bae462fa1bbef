import GraphSnapshot.Text.Hex
import GraphSnapshot.Text.Printable

/-! Names inside messages stand in double quotes. What a reader could not see or could misread is
escaped; an apostrophe is not. -/
namespace GraphSnapshot.Text

def escape (c : Char) : List Char :=
  match c with
  | '\x00' => ['\\', '0']
  | '\t' => ['\\', 't']
  | '\r' => ['\\', 'r']
  | '\n' => ['\\', 'n']
  | '"' => ['\\', '"']
  | '\\' => ['\\', '\\']
  | c => if isPrintable c then [c] else "\\u\x7b".toList ++ (hex c.toNat).toList ++ ['\x7d']

def quoted (s : String) : String :=
  String.ofList ('"' :: s.toList.flatMap escape ++ ['"'])

end GraphSnapshot.Text
