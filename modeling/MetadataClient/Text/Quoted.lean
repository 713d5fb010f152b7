import MetadataClient.Text.Unprintable
import MetadataClient.Text.Extender
import MetadataClient.Text.Hexadecimal

/-! Text between quotes, as descriptions of values show it. Whatever could not be
seen there is written as an escape. -/
namespace MetadataClient.Text

def quotedChar (char : Char) : List Char :=
  match char with
  | '\x00' => ['\\', '0']
  | '\t' => ['\\', 't']
  | '\n' => ['\\', 'n']
  | '\r' => ['\\', 'r']
  | '"' => ['\\', '"']
  | '\\' => ['\\', '\\']
  | char =>
    if isExtender char || isUnprintable char then
      ['\\', 'u', '\x7b'] ++ hexText char.toNat ++ ['\x7d']
    else [char]

def quoted (text : String) : String :=
  String.ofList ('"' :: (text.toList.flatMap quotedChar ++ ['"']))

end MetadataClient.Text
