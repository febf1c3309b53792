import Gleaner.Text.Alphabet

/-!
# Java identifiers

An identifier starts with a letter, a letter-like number, an underscore or a dollar sign; combining
marks, decimal digits and a few connectors may follow. The tables here correct the general classes of
letters and numbers where identifiers differ from them.
-/

namespace Gleaner.Java

open Gleaner.Text

set_option maxRecDepth 20000

/-- Code points that start an identifier and are no letters. -/
def startCodes : CodeSet :=
  [0x16ee, 0x16f1, 0x1885, 0x1887, 0x2118, 0x2119, 0x212e, 0x212f, 0x2160, 0x2183, 0x2185, 0x2189,
   0x3007, 0x3008, 0x3021, 0x302a, 0x3038, 0x303b, 0xa6e6, 0xa6f0, 0x10140, 0x10175, 0x10341,
   0x10342, 0x1034a, 0x1034b, 0x103d1, 0x103d6, 0x12400, 0x1246f]

/-- Letters that start no identifier. -/
def nonStartCodes : CodeSet :=
  [0x37a, 0x37b, 0xe33, 0xe34, 0xeb3, 0xeb4, 0x2e2f, 0x2e30, 0xfc5e, 0xfc64, 0xfdfa, 0xfdfc, 0xfe70,
   0xfe71, 0xfe72, 0xfe73, 0xfe74, 0xfe75, 0xfe76, 0xfe77, 0xfe78, 0xfe79, 0xfe7a, 0xfe7b, 0xfe7c,
   0xfe7d, 0xfe7e, 0xfe7f, 0xff9e, 0xffa0]

/-- Numbers that are neither digits nor letter-like. -/
def otherNumberCodes : CodeSet :=
  [0xb2, 0xb4, 0xb9, 0xba, 0xbc, 0xbf, 0x9f4, 0x9fa, 0xb72, 0xb78, 0xbf0, 0xbf3, 0xc78, 0xc7f,
   0xd58, 0xd5f, 0xd70, 0xd79, 0xf2a, 0xf34, 0x1369, 0x137d, 0x17f0, 0x17fa, 0x19da, 0x19db, 0x2070,
   0x2071, 0x2074, 0x207a, 0x2080, 0x208a, 0x2150, 0x2160, 0x2189, 0x218a, 0x2460, 0x249c, 0x24ea,
   0x2500, 0x2776, 0x2794, 0x2cfd, 0x2cfe, 0x3192, 0x3196, 0x3220, 0x322a, 0x3248, 0x3250, 0x3251,
   0x3260, 0x3280, 0x328a, 0x32b1, 0x32c0, 0xa830, 0xa836, 0x10107, 0x10134, 0x10175, 0x10179,
   0x1018a, 0x1018c, 0x102e1, 0x102fc, 0x10320, 0x10324, 0x10858, 0x10860, 0x10879, 0x10880,
   0x108a7, 0x108b0, 0x108fb, 0x10900, 0x10916, 0x1091c, 0x109bc, 0x109be, 0x109c0, 0x109d0,
   0x109d2, 0x10a00, 0x10a40, 0x10a49, 0x10a7d, 0x10a7f, 0x10a9d, 0x10aa0, 0x10aeb, 0x10af0,
   0x10b58, 0x10b60, 0x10b78, 0x10b80, 0x10ba9, 0x10bb0, 0x10cfa, 0x10d00, 0x10e60, 0x10e7f,
   0x10f1d, 0x10f27, 0x10f51, 0x10f55, 0x10fc5, 0x10fcc, 0x11052, 0x11066, 0x111e1, 0x111f5,
   0x1173a, 0x1173c, 0x118ea, 0x118f3, 0x11c5a, 0x11c6d, 0x11fc0, 0x11fd5, 0x16b5b, 0x16b62,
   0x16e80, 0x16e97, 0x1d2e0, 0x1d2f4, 0x1d360, 0x1d379, 0x1e8c7, 0x1e8d0, 0x1ec71, 0x1ecac,
   0x1ecad, 0x1ecb0, 0x1ecb1, 0x1ecb5, 0x1ed01, 0x1ed2e, 0x1ed2f, 0x1ed3e, 0x1f100, 0x1f10d]

/-- Code points inside identifiers that are neither letters, nor marks, nor digits. -/
def connectorCodes : CodeSet :=
  [0xa2, 0xa3, 0xb7, 0xb8, 0x387, 0x388, 0xe33, 0xe34, 0xeb3, 0xeb4, 0x1369, 0x1372, 0x19da, 0x19db,
   0x203f, 0x2041, 0x2054, 0x2055, 0xfe33, 0xfe35, 0xfe4d, 0xfe50, 0xff3f, 0xff40, 0xff9e, 0xffa0]

/-- A character that may start an identifier. -/
def isIdentifierStart (c : Char) : Bool :=
  if c.toNat < 0x80 then c.isAlpha || c == '_' || c == '$'
  else (isLetter c && !nonStartCodes.contains c.toNat) || startCodes.contains c.toNat

/-- A character that may stand inside an identifier. -/
def isIdentifierPart (c : Char) : Bool :=
  isIdentifierStart c || isMark c || (isNumber c && !otherNumberCodes.contains c.toNat) ||
    connectorCodes.contains c.toNat

end Gleaner.Java
