import CelSuite.Unicode.Ranges

/-! # Lower case

The lower case of text. Every character has its own, but for a dotted capital I, which becomes two
characters, and a capital sigma, which becomes the final one at the end of a word: when a character with
case stands before it and none after it, not counting characters without weight in between. The tables
give the lower-case letters of characters, the characters that have case, and those without weight. -/

namespace CelSuite.Unicode

/-- The characters whose lower case is one other character. -/
def lowerShifts : List Shift :=
  [⟨0x41, 0x5A, 1, 32⟩, ⟨0xC0, 0xD6, 1, 32⟩, ⟨0xD8, 0xDE, 1, 32⟩, ⟨0x100, 0x12E, 2, 1⟩,
    ⟨0x132, 0x136, 2, 1⟩, ⟨0x139, 0x147, 2, 1⟩, ⟨0x14A, 0x176, 2, 1⟩, ⟨0x178, 0x178, 1, -121⟩,
    ⟨0x179, 0x17D, 2, 1⟩, ⟨0x181, 0x181, 1, 210⟩, ⟨0x182, 0x184, 2, 1⟩, ⟨0x186, 0x186, 1, 206⟩,
    ⟨0x187, 0x187, 1, 1⟩, ⟨0x189, 0x18A, 1, 205⟩, ⟨0x18B, 0x18B, 1, 1⟩, ⟨0x18E, 0x18E, 1, 79⟩,
    ⟨0x18F, 0x18F, 1, 202⟩, ⟨0x190, 0x190, 1, 203⟩, ⟨0x191, 0x191, 1, 1⟩, ⟨0x193, 0x193, 1, 205⟩,
    ⟨0x194, 0x194, 1, 207⟩, ⟨0x196, 0x196, 1, 211⟩, ⟨0x197, 0x197, 1, 209⟩, ⟨0x198, 0x198, 1, 1⟩,
    ⟨0x19C, 0x19C, 1, 211⟩, ⟨0x19D, 0x19D, 1, 213⟩, ⟨0x19F, 0x19F, 1, 214⟩, ⟨0x1A0, 0x1A4, 2, 1⟩,
    ⟨0x1A6, 0x1A6, 1, 218⟩, ⟨0x1A7, 0x1A7, 1, 1⟩, ⟨0x1A9, 0x1A9, 1, 218⟩, ⟨0x1AC, 0x1AC, 1, 1⟩,
    ⟨0x1AE, 0x1AE, 1, 218⟩, ⟨0x1AF, 0x1AF, 1, 1⟩, ⟨0x1B1, 0x1B2, 1, 217⟩, ⟨0x1B3, 0x1B5, 2, 1⟩,
    ⟨0x1B7, 0x1B7, 1, 219⟩, ⟨0x1B8, 0x1B8, 1, 1⟩, ⟨0x1BC, 0x1BC, 1, 1⟩, ⟨0x1C4, 0x1C4, 1, 2⟩,
    ⟨0x1C5, 0x1C5, 1, 1⟩, ⟨0x1C7, 0x1C7, 1, 2⟩, ⟨0x1C8, 0x1C8, 1, 1⟩, ⟨0x1CA, 0x1CA, 1, 2⟩,
    ⟨0x1CB, 0x1DB, 2, 1⟩, ⟨0x1DE, 0x1EE, 2, 1⟩, ⟨0x1F1, 0x1F1, 1, 2⟩, ⟨0x1F2, 0x1F4, 2, 1⟩,
    ⟨0x1F6, 0x1F6, 1, -97⟩, ⟨0x1F7, 0x1F7, 1, -56⟩, ⟨0x1F8, 0x21E, 2, 1⟩, ⟨0x220, 0x220, 1, -130⟩,
    ⟨0x222, 0x232, 2, 1⟩, ⟨0x23A, 0x23A, 1, 10795⟩, ⟨0x23B, 0x23B, 1, 1⟩, ⟨0x23D, 0x23D, 1, -163⟩,
    ⟨0x23E, 0x23E, 1, 10792⟩, ⟨0x241, 0x241, 1, 1⟩, ⟨0x243, 0x243, 1, -195⟩,
    ⟨0x244, 0x244, 1, 69⟩, ⟨0x245, 0x245, 1, 71⟩, ⟨0x246, 0x24E, 2, 1⟩, ⟨0x370, 0x372, 2, 1⟩,
    ⟨0x376, 0x376, 1, 1⟩, ⟨0x37F, 0x37F, 1, 116⟩, ⟨0x386, 0x386, 1, 38⟩, ⟨0x388, 0x38A, 1, 37⟩,
    ⟨0x38C, 0x38C, 1, 64⟩, ⟨0x38E, 0x38F, 1, 63⟩, ⟨0x391, 0x3A1, 1, 32⟩, ⟨0x3A3, 0x3AB, 1, 32⟩,
    ⟨0x3CF, 0x3CF, 1, 8⟩, ⟨0x3D8, 0x3EE, 2, 1⟩, ⟨0x3F4, 0x3F4, 1, -60⟩, ⟨0x3F7, 0x3F7, 1, 1⟩,
    ⟨0x3F9, 0x3F9, 1, -7⟩, ⟨0x3FA, 0x3FA, 1, 1⟩, ⟨0x3FD, 0x3FF, 1, -130⟩, ⟨0x400, 0x40F, 1, 80⟩,
    ⟨0x410, 0x42F, 1, 32⟩, ⟨0x460, 0x480, 2, 1⟩, ⟨0x48A, 0x4BE, 2, 1⟩, ⟨0x4C0, 0x4C0, 1, 15⟩,
    ⟨0x4C1, 0x4CD, 2, 1⟩, ⟨0x4D0, 0x52E, 2, 1⟩, ⟨0x531, 0x556, 1, 48⟩, ⟨0x10A0, 0x10C5, 1, 7264⟩,
    ⟨0x10C7, 0x10C7, 1, 7264⟩, ⟨0x10CD, 0x10CD, 1, 7264⟩, ⟨0x13A0, 0x13EF, 1, 38864⟩,
    ⟨0x13F0, 0x13F5, 1, 8⟩, ⟨0x1C89, 0x1C89, 1, 1⟩, ⟨0x1C90, 0x1CBA, 1, -3008⟩,
    ⟨0x1CBD, 0x1CBF, 1, -3008⟩, ⟨0x1E00, 0x1E94, 2, 1⟩, ⟨0x1E9E, 0x1E9E, 1, -7615⟩,
    ⟨0x1EA0, 0x1EFE, 2, 1⟩, ⟨0x1F08, 0x1F0F, 1, -8⟩, ⟨0x1F18, 0x1F1D, 1, -8⟩,
    ⟨0x1F28, 0x1F2F, 1, -8⟩, ⟨0x1F38, 0x1F3F, 1, -8⟩, ⟨0x1F48, 0x1F4D, 1, -8⟩,
    ⟨0x1F59, 0x1F5F, 2, -8⟩, ⟨0x1F68, 0x1F6F, 1, -8⟩, ⟨0x1F88, 0x1F8F, 1, -8⟩,
    ⟨0x1F98, 0x1F9F, 1, -8⟩, ⟨0x1FA8, 0x1FAF, 1, -8⟩, ⟨0x1FB8, 0x1FB9, 1, -8⟩,
    ⟨0x1FBA, 0x1FBB, 1, -74⟩, ⟨0x1FBC, 0x1FBC, 1, -9⟩, ⟨0x1FC8, 0x1FCB, 1, -86⟩,
    ⟨0x1FCC, 0x1FCC, 1, -9⟩, ⟨0x1FD8, 0x1FD9, 1, -8⟩, ⟨0x1FDA, 0x1FDB, 1, -100⟩,
    ⟨0x1FE8, 0x1FE9, 1, -8⟩, ⟨0x1FEA, 0x1FEB, 1, -112⟩, ⟨0x1FEC, 0x1FEC, 1, -7⟩,
    ⟨0x1FF8, 0x1FF9, 1, -128⟩, ⟨0x1FFA, 0x1FFB, 1, -126⟩, ⟨0x1FFC, 0x1FFC, 1, -9⟩,
    ⟨0x2126, 0x2126, 1, -7517⟩, ⟨0x212A, 0x212A, 1, -8383⟩, ⟨0x212B, 0x212B, 1, -8262⟩,
    ⟨0x2132, 0x2132, 1, 28⟩, ⟨0x2160, 0x216F, 1, 16⟩, ⟨0x2183, 0x2183, 1, 1⟩,
    ⟨0x24B6, 0x24CF, 1, 26⟩, ⟨0x2C00, 0x2C2F, 1, 48⟩, ⟨0x2C60, 0x2C60, 1, 1⟩,
    ⟨0x2C62, 0x2C62, 1, -10743⟩, ⟨0x2C63, 0x2C63, 1, -3814⟩, ⟨0x2C64, 0x2C64, 1, -10727⟩,
    ⟨0x2C67, 0x2C6B, 2, 1⟩, ⟨0x2C6D, 0x2C6D, 1, -10780⟩, ⟨0x2C6E, 0x2C6E, 1, -10749⟩,
    ⟨0x2C6F, 0x2C6F, 1, -10783⟩, ⟨0x2C70, 0x2C70, 1, -10782⟩, ⟨0x2C72, 0x2C72, 1, 1⟩,
    ⟨0x2C75, 0x2C75, 1, 1⟩, ⟨0x2C7E, 0x2C7F, 1, -10815⟩, ⟨0x2C80, 0x2CE2, 2, 1⟩,
    ⟨0x2CEB, 0x2CED, 2, 1⟩, ⟨0x2CF2, 0x2CF2, 1, 1⟩, ⟨0xA640, 0xA66C, 2, 1⟩,
    ⟨0xA680, 0xA69A, 2, 1⟩, ⟨0xA722, 0xA72E, 2, 1⟩, ⟨0xA732, 0xA76E, 2, 1⟩,
    ⟨0xA779, 0xA77B, 2, 1⟩, ⟨0xA77D, 0xA77D, 1, -35332⟩, ⟨0xA77E, 0xA786, 2, 1⟩,
    ⟨0xA78B, 0xA78B, 1, 1⟩, ⟨0xA78D, 0xA78D, 1, -42280⟩, ⟨0xA790, 0xA792, 2, 1⟩,
    ⟨0xA796, 0xA7A8, 2, 1⟩, ⟨0xA7AA, 0xA7AA, 1, -42308⟩, ⟨0xA7AB, 0xA7AB, 1, -42319⟩,
    ⟨0xA7AC, 0xA7AC, 1, -42315⟩, ⟨0xA7AD, 0xA7AD, 1, -42305⟩, ⟨0xA7AE, 0xA7AE, 1, -42308⟩,
    ⟨0xA7B0, 0xA7B0, 1, -42258⟩, ⟨0xA7B1, 0xA7B1, 1, -42282⟩, ⟨0xA7B2, 0xA7B2, 1, -42261⟩,
    ⟨0xA7B3, 0xA7B3, 1, 928⟩, ⟨0xA7B4, 0xA7C2, 2, 1⟩, ⟨0xA7C4, 0xA7C4, 1, -48⟩,
    ⟨0xA7C5, 0xA7C5, 1, -42307⟩, ⟨0xA7C6, 0xA7C6, 1, -35384⟩, ⟨0xA7C7, 0xA7C9, 2, 1⟩,
    ⟨0xA7CB, 0xA7CB, 1, -42343⟩, ⟨0xA7CC, 0xA7DA, 2, 1⟩, ⟨0xA7DC, 0xA7DC, 1, -42561⟩,
    ⟨0xA7F5, 0xA7F5, 1, 1⟩, ⟨0xFF21, 0xFF3A, 1, 32⟩, ⟨0x10400, 0x10427, 1, 40⟩,
    ⟨0x104B0, 0x104D3, 1, 40⟩, ⟨0x10570, 0x1057A, 1, 39⟩, ⟨0x1057C, 0x1058A, 1, 39⟩,
    ⟨0x1058C, 0x10592, 1, 39⟩, ⟨0x10594, 0x10595, 1, 39⟩, ⟨0x10C80, 0x10CB2, 1, 64⟩,
    ⟨0x10D50, 0x10D65, 1, 32⟩, ⟨0x118A0, 0x118BF, 1, 32⟩, ⟨0x16E40, 0x16E5F, 1, 32⟩,
    ⟨0x16EA0, 0x16EB8, 1, 27⟩, ⟨0x1E900, 0x1E921, 1, 34⟩]

/-- The characters that have case. -/
def casedRanges : Ranges := Ranges.ofText
  ("41+19 6+19 2f a 4 5+16 1+1e 1+c2 1+3 4+cf 2+22 7+1 1e+4 60 2a+3 2+1 2+3 1 6 1+2 1 1+13 " ++
   "1+52 1+8a 8+a5 1+25 9+28 b17+25 1 5 2+2a 1+3 2a0+55 2+5 882+a 5+2a 2+2 40+bf 40+115 2+5 " ++
   "2+25 2+5 2+7 1 1 1 1+1e 2+34 1+6 1 3+2 1+6 3+3 2+5 4+c 5+2 1+6 74 d 10+c 65 4 2+9 1 3+4 6 " ++
   "1 1 1+3 1+5 4 2+3 5+4 4 11+1f 3+1 331+33 716+e4 6+3 3+1 c+25 1 5 7912+2d 12+1d 84+65 3+3 " ++
   "1+4c 14+5 1+2 335+2a 1+d 6+4f 4f40+6 c+4 409+19 6+19 4a5+4f 60+23 4+23 74+a 1+e 1+6 1+1 " ++
   "1+a 1+e 1+6 1+1 1c3 2+2 1+29 1+8 4c5+32 d+32 5d+15 a+15 b1a+3f 5560+3f 20+18 2+18 652c+54 " ++
   "1+46 1+1 2 2+1 2+3 1+b 1 1+6 1+40 1+3 2+7 1+6 1+1b 1+3 1+4 1 3+6 1+153 2+18 1+18 1+1e " ++
   "1+18 1+1e 1+18 1+1e 1+18 1+1e 1+18 1+7 734+9 1+13 6+5 105+3d 892+43 7ec+19 6+19 6+19")

/-- The characters that do not matter for the context of a letter. -/
def ignorableRanges : Ranges := Ranges.ofText
  ("27 6 b 23 1 47 4 1 4 2+1 1f7+bf 4+1 4 9+1 1 fb+6 cf 5 31+2c 1 1+1 1+1 1 2c b+5 a+a 1 23 " ++
   "a+14 10 65+7 1+9 1+3 21 1 1e+1a 5b+a 3a+a 4 2 18+17 2b+2 2c 7+1 5+8 29+39 37 1 4+7 4 3+6 " ++
   "a+1 d f 3a 4+3 8 14+1 1a 2+1 39 4+1 4+1 2+2 3 1e+1 3 b+1 39 4+4 1+1 4 14+1 16+5 1 3a 2 " ++
   "1+3 8 7+1 b+1 1e 3d c 32 3 37 1+2 5+2 1+3 7+1 b+1 1d 3a 2 6 5+1 14+1 1c+1 39+1 4+3 8 14+1 " ++
   "1d 48 7+2 1 5a 2+6 b+8 62 2+8 9 1+6 49+1 1b 1 1 37+d 1+4 1+1 5+a 1+23 9 66+3 1+5 1+1 2+1 " ++
   "19+1 4+2 10+3 d 2+1 6 f 5e 260+2 3b2+2 1d+1 1e+1 1e+1 40+1 1+6 8 2+a 3 5 2d+4 33 41+1 22 " ++
   "76+2 4+1 9 6+2 db+1 2 3a 1+6 1 1 2+7 6+9 2 27 8+2d 2+b 14+3 30 1+4 1 5 28+8 c+1 20+3 2+1 " ++
   "1+2 38 1+1 3 1+2 3a+7 2+1 40+5 52+2 1+c 1+6 4 6 3+1 32+3e d 22+64 1bd 1+2 b+2 d+2 d+2 d+1 " ++
   "c+4 8+1 a 2 2+4 31+4 1+9 1 d 10+c 33+20 b8b+1 71+2 7d f 60+1f 2f 1d5 24+3 3+4 5 5d+5 5d+2 " ++
   "6f16 4e2+5 10e 62+3 1+9 1 1c+3 50+1 e+21 4e 17+2 66+3 3+1 8 3 4 19+1 5 97+1 1a+11 d 26+7 " ++
   "19+a 2e+2 30 2+3 2+1 11 15+1 42+5 2+1 2+1 c 8 23 b 33 1+2 2+1 5+1 1 1b e+1 5+1 1 64+4 9+2 " ++
   "79 2 4 4f30 93+10 23d+f 3 c+f 22 2 a9 7 6 b 23 1 2f 2d+1 43 15+2 201 e2 95+4 405+5 1+29 " ++
   "1+8 246+2 1+1 5+3 28+2 4 a5+1 23d+3 26 1a+4 1 13b+1 18 34+5 46+a 31+3 7b 36+e 29 2+1 a+2 " ++
   "31+3 2+1 2 4 a 32+2 24+4 1+7 3e c+1 34+8 a+3 2 5f+2 2 1+1 6 2 9d 3+7 15+1 39+1 3 25+6 3+4 " ++
   "46+5 d 1 1 e+1 55+7 2+2 1 17 54+5 1 4+1 1+1 ee+3 6+1 1+1 1b+1 55+7 2 1+1 6a 1 2+5 1 65 1 " ++
   "2+3 1+4 103+8 1+1 100+1 1 4 90+3 2+1 4 20+9 28+5 2+3 8 9+5 2+2 2e+c 1+1 c6 1+2 1 c9+6 1+5 " ++
   "1 52+15 2+6 1+1 1+1 7a+5 3 1+1 1+6 1 48+1 3 1 41 119+1 b+1 34+4 5 1 17 14d5+10 6+e 2cc8+b " ++
   "3+2 9c0+4 3b+6 9+3 1fc+2 28+1 1e2 3f+10 40+1 1+1 d+1 3ffc+3 1+6 1+1 c9e+1 1+3 125c+2d " ++
   "2+16 220+2 9+f 2+6 1e+3 94+2 7bb+36 4+31 8 e 16+4 1+e 550+6 1+10 2+6 1+1 1+4 5+3d 21 a0+d " ++
   "170 3d+3 1fb+4 fe+1 f3 2 7+1 5 9 1d0+6 6d+7 aaf+4 c0c01 1e+5f 80+ef")

end CelSuite.Unicode

namespace CelSuite.Text

def isCased (c : Char) : Bool := Unicode.casedRanges.contains c.toNat

def isIgnorable (c : Char) : Bool := Unicode.ignorableRanges.contains c.toNat

/-- Whether the next character that counts has case. -/
def meetsCased (cs : List Char) : Bool :=
  ((cs.dropWhile isIgnorable).head?.map isCased).getD false

/-- The lower case of a character on its own. -/
def lowerChar (c : Char) : List Char :=
  if c.toNat < 0x80 then [c.toLower]
  else if c = '\u0130' then ['i', '\u0307']
  else [Char.ofNat (Unicode.shifted Unicode.lowerShifts c.toNat)]

/-- The lower case of characters that have those of `done` before them, the nearest first. -/
def lowerFrom (done : List Char) : List Char → List Char
  | [] => []
  | c :: cs =>
    (if c = '\u03A3' then [if meetsCased done && !meetsCased cs then '\u03C2' else '\u03C3']
      else lowerChar c) ++ lowerFrom (c :: done) cs

/-- The lower case of a text. -/
def lower (s : String) : String :=
  String.ofList (lowerFrom [] s.toList)

end CelSuite.Text
