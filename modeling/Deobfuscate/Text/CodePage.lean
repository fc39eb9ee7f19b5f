import Deobfuscate.Text.Bytes

/-!
# Names in a code page

Names that are not marked as UTF-8 have one byte for each character.  Bytes
below 128 are ASCII, the others stand for the letters and signs of code page
437.
-/

namespace Deobfuscate.Text

/-- The characters of the bytes from 128 on. -/
def upperCodePage : Array Char :=
  ("ÇüéâäàåçêëèïîìÄÅÉæÆôöòûùÿÖÜ¢£¥₧ƒ" ++
    "áíóúñÑªº¿⌐¬½¼¡«»░▒▓│┤╡╢╖╕╣║╗╝╜╛┐" ++
    "└┴┬├─┼╞╟╚╔╩╦╠═╬╧╨╤╥╙╘╒╓╫╪┘┌█▄▌▐▀" ++
    "αßΓπΣσµτΦΘΩδ∞φε∩≡±≥≤⌠⌡÷≈°∙·√ⁿ²■\u00a0").toList.toArray

def decodeCodePage (bytes : Bytes) : String :=
  String.ofList (bytes.map fun byte =>
    if byte < 128 then Char.ofNat byte.toNat
    else upperCodePage[byte.toNat - 128]?.getD ' ')

end Deobfuscate.Text
