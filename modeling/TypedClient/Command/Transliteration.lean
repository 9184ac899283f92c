/-!
# Transliteration to ASCII

Every character has a rendering in ASCII, possibly empty: an accent is dropped,
a ligature is spelled out, and a letter of another script is written by its
sound. The table has the characters whose rendering is known, so it serves to run the
program on texts that are made of them. Nothing that is proved of the program rests on it.
-/

namespace TypedClient.Command

/-- The renderings of the characters beyond ASCII that have a visible one. -/
def asciiRenderings : List (Nat × String) :=
  [(0xA0, " "), (0xA1, "!"), (0xA2, "C"), (0xA3, "GBP"), (0xA4, "$"), (0xA5, "YEN"), (0xA6, "|"),
    (0xA7, "S"), (0xA8, "\""), (0xA9, "(C)"), (0xAA, "a"), (0xAB, "<<"), (0xAC, "-"),
    (0xAE, "(R)"), (0xAF, "-"), (0xB0, "deg"), (0xB1, "+-"), (0xB2, "2"), (0xB3, "3"),
    (0xB4, "'"), (0xB5, "u"), (0xB6, "P"), (0xB7, "."), (0xB8, ","), (0xB9, "1"), (0xBA, "o"),
    (0xBB, ">>"), (0xBC, "1/4"), (0xBD, "1/2"), (0xBE, "3/4"), (0xBF, "?"), (0xC0, "A"),
    (0xC1, "A"), (0xC2, "A"), (0xC3, "A"), (0xC4, "A"), (0xC5, "A"), (0xC6, "Ae"), (0xC7, "C"),
    (0xC8, "E"), (0xC9, "E"), (0xCA, "E"), (0xCB, "E"), (0xCC, "I"), (0xCD, "I"), (0xCE, "I"),
    (0xCF, "I"), (0xD0, "D"), (0xD1, "N"), (0xD2, "O"), (0xD3, "O"), (0xD4, "O"), (0xD5, "O"),
    (0xD6, "O"), (0xD7, "x"), (0xD8, "O"), (0xD9, "U"), (0xDA, "U"), (0xDB, "U"), (0xDC, "U"),
    (0xDD, "Y"), (0xDE, "Th"), (0xDF, "ss"), (0xE0, "a"), (0xE1, "a"), (0xE2, "a"), (0xE3, "a"),
    (0xE4, "a"), (0xE5, "a"), (0xE6, "ae"), (0xE7, "c"), (0xE8, "e"), (0xE9, "e"), (0xEA, "e"),
    (0xEB, "e"), (0xEC, "i"), (0xED, "i"), (0xEE, "i"), (0xEF, "i"), (0xF0, "d"), (0xF1, "n"),
    (0xF2, "o"), (0xF3, "o"), (0xF4, "o"), (0xF5, "o"), (0xF6, "o"), (0xF7, "/"), (0xF8, "o"),
    (0xF9, "u"), (0xFA, "u"), (0xFB, "u"), (0xFC, "u"), (0xFD, "y"), (0xFE, "th"), (0xFF, "y"),
    (0x100, "A"), (0x101, "a"), (0x102, "A"), (0x103, "a"), (0x104, "A"), (0x105, "a"),
    (0x106, "C"), (0x107, "c"), (0x108, "C"), (0x109, "c"), (0x10A, "C"), (0x10B, "c"),
    (0x10C, "C"), (0x10D, "c"), (0x10E, "D"), (0x10F, "d"), (0x110, "D"), (0x111, "d"),
    (0x112, "E"), (0x113, "e"), (0x114, "E"), (0x115, "e"), (0x116, "E"), (0x117, "e"),
    (0x118, "E"), (0x119, "e"), (0x11A, "E"), (0x11B, "e"), (0x11C, "G"), (0x11D, "g"),
    (0x11E, "G"), (0x11F, "g"), (0x120, "G"), (0x121, "g"), (0x122, "G"), (0x123, "g"),
    (0x124, "H"), (0x125, "h"), (0x126, "H"), (0x127, "h"), (0x128, "I"), (0x129, "i"),
    (0x12A, "I"), (0x12B, "i"), (0x12C, "I"), (0x12D, "i"), (0x12E, "I"), (0x12F, "i"),
    (0x130, "I"), (0x131, "i"), (0x132, "IJ"), (0x133, "ij"), (0x134, "J"), (0x135, "j"),
    (0x136, "K"), (0x137, "k"), (0x138, "k"), (0x139, "L"), (0x13A, "l"), (0x13B, "L"),
    (0x13C, "l"), (0x13D, "L"), (0x13E, "l"), (0x13F, "L"), (0x140, "l"), (0x141, "L"),
    (0x142, "l"), (0x143, "N"), (0x144, "n"), (0x145, "N"), (0x146, "n"), (0x147, "N"),
    (0x148, "n"), (0x149, "'n"), (0x14A, "N"), (0x14B, "n"), (0x14C, "O"), (0x14D, "o"),
    (0x14E, "O"), (0x14F, "o"), (0x150, "O"), (0x151, "o"), (0x152, "OE"), (0x153, "oe"),
    (0x154, "R"), (0x155, "r"), (0x156, "R"), (0x157, "r"), (0x158, "R"), (0x159, "r"),
    (0x15A, "S"), (0x15B, "s"), (0x15C, "S"), (0x15D, "s"), (0x15E, "S"), (0x15F, "s"),
    (0x160, "S"), (0x161, "s"), (0x162, "T"), (0x163, "t"), (0x164, "T"), (0x165, "t"),
    (0x166, "T"), (0x167, "t"), (0x168, "U"), (0x169, "u"), (0x16A, "U"), (0x16B, "u"),
    (0x16C, "U"), (0x16D, "u"), (0x16E, "U"), (0x16F, "u"), (0x170, "U"), (0x171, "u"),
    (0x172, "U"), (0x173, "u"), (0x174, "W"), (0x175, "w"), (0x176, "Y"), (0x177, "y"),
    (0x178, "Y"), (0x179, "Z"), (0x17A, "z"), (0x17B, "Z"), (0x17C, "z"), (0x17D, "Z"),
    (0x17E, "z"), (0x17F, "s"), (0x1C4, "DZ"), (0x1C6, "dz"), (0x391, "A"), (0x392, "V"),
    (0x393, "G"), (0x394, "D"), (0x395, "E"), (0x396, "Z"), (0x397, "I"), (0x398, "Th"),
    (0x399, "I"), (0x39A, "K"), (0x39B, "L"), (0x39C, "M"), (0x39D, "N"), (0x39E, "X"),
    (0x39F, "O"), (0x3A0, "P"), (0x3A1, "R"), (0x3A3, "S"), (0x3A4, "T"), (0x3A5, "Y"),
    (0x3A6, "F"), (0x3A7, "Kh"), (0x3A8, "Ps"), (0x3A9, "O"), (0x3B1, "a"), (0x3B2, "v"),
    (0x3B3, "g"), (0x3B4, "d"), (0x3B5, "e"), (0x3B6, "z"), (0x3B7, "i"), (0x3B8, "th"),
    (0x3B9, "i"), (0x3BA, "k"), (0x3BB, "l"), (0x3BC, "m"), (0x3BD, "n"), (0x3BE, "x"),
    (0x3BF, "o"), (0x3C0, "p"), (0x3C1, "r"), (0x3C2, "s"), (0x3C3, "s"), (0x3C4, "t"),
    (0x3C5, "y"), (0x3C6, "f"), (0x3C7, "kh"), (0x3C8, "ps"), (0x3C9, "o"), (0x401, "Yo"),
    (0x410, "A"), (0x411, "B"), (0x412, "V"), (0x413, "G"), (0x414, "D"), (0x415, "E"),
    (0x416, "Zh"), (0x417, "Z"), (0x418, "I"), (0x419, "Y"), (0x41A, "K"), (0x41B, "L"),
    (0x41C, "M"), (0x41D, "N"), (0x41E, "O"), (0x41F, "P"), (0x420, "R"), (0x421, "S"),
    (0x422, "T"), (0x423, "U"), (0x424, "F"), (0x425, "Kh"), (0x426, "Ts"), (0x427, "Ch"),
    (0x428, "Sh"), (0x429, "Shch"), (0x42A, "'"), (0x42B, "Y"), (0x42C, "'"), (0x42D, "E"),
    (0x42E, "Yu"), (0x42F, "Ya"), (0x430, "a"), (0x431, "b"), (0x432, "v"), (0x433, "g"),
    (0x434, "d"), (0x435, "e"), (0x436, "zh"), (0x437, "z"), (0x438, "i"), (0x439, "y"),
    (0x43A, "k"), (0x43B, "l"), (0x43C, "m"), (0x43D, "n"), (0x43E, "o"), (0x43F, "p"),
    (0x440, "r"), (0x441, "s"), (0x442, "t"), (0x443, "u"), (0x444, "f"), (0x445, "kh"),
    (0x446, "ts"), (0x447, "ch"), (0x448, "sh"), (0x449, "shch"), (0x44A, "'"), (0x44B, "y"),
    (0x44C, "'"), (0x44D, "e"), (0x44E, "yu"), (0x44F, "ya"), (0x451, "yo"), (0x561, "a"),
    (0x660, "0"), (0x661, "1"), (0x662, "2"), (0x663, "3"), (0x664, "4"), (0x665, "5"),
    (0x666, "6"), (0x667, "7"), (0x668, "8"), (0x669, "9"), (0x966, "0"), (0x967, "1"),
    (0x968, "2"), (0x969, "3"), (0x96A, "4"), (0x96B, "5"), (0x96C, "6"), (0x96D, "7"),
    (0x96E, "8"), (0x96F, "9"), (0x1680, " "), (0x2000, " "), (0x2001, " "), (0x2002, " "),
    (0x2003, " "), (0x2004, " "), (0x2005, " "), (0x2006, " "), (0x2007, " "), (0x2008, " "),
    (0x2009, " "), (0x200A, " "), (0x2010, "-"), (0x2011, "-"), (0x2012, "-"), (0x2013, "-"),
    (0x2014, "-"), (0x2015, "-"), (0x2018, "'"), (0x2019, "'"), (0x201A, "'"), (0x201C, "\""),
    (0x201D, "\""), (0x201E, "\""), (0x2022, "*"), (0x2026, "..."), (0x2028, " "), (0x2029, " "),
    (0x202F, " "), (0x205F, " "), (0x20AC, "EUR"), (0x2160, "I"), (0x2161, "II"), (0x2162, "III"),
    (0x2163, "IV"), (0x2164, "V"), (0x2165, "VI"), (0x2166, "VII"), (0x2167, "VIII"),
    (0x2168, "IX"), (0x2169, "X"), (0x216A, "XI"), (0x216B, "XII"), (0x3000, " "),
    (0x4E2D, "Zhong"), (0x53F7, "Hao"), (0x540D, "Ming"), (0x6237, "Hu"), (0x6587, "Wen"),
    (0x65E5, "Ri"), (0x672C, "Ben"), (0x7406, "Li"), (0x7528, "Yong"), (0x7BA1, "Guan"),
    (0x7F16, "Bian"), (0xAD6D, "Gug"), (0xD55C, "Han"), (0xFB00, "ff"), (0xFB01, "fi"),
    (0xFB02, "fl"), (0xFB03, "ffi"), (0xFB04, "ffl"), (0xFB05, "st"), (0xFB06, "st"),
    (0xFF01, "!"), (0xFF02, "\""), (0xFF03, "#"), (0xFF04, "$"), (0xFF05, "%"), (0xFF06, "&"),
    (0xFF07, "'"), (0xFF08, "("), (0xFF09, ")"), (0xFF0A, "*"), (0xFF0B, "+"), (0xFF0C, ","),
    (0xFF0D, "-"), (0xFF0E, "."), (0xFF0F, "/"), (0xFF10, "0"), (0xFF11, "1"), (0xFF12, "2"),
    (0xFF13, "3"), (0xFF14, "4"), (0xFF15, "5"), (0xFF16, "6"), (0xFF17, "7"), (0xFF18, "8"),
    (0xFF19, "9"), (0xFF1A, ":"), (0xFF1B, ";"), (0xFF1C, "<"), (0xFF1D, "="), (0xFF1E, ">"),
    (0xFF1F, "?"), (0xFF20, "@"), (0xFF21, "A"), (0xFF22, "B"), (0xFF23, "C"), (0xFF24, "D"),
    (0xFF25, "E"), (0xFF26, "F"), (0xFF27, "G"), (0xFF28, "H"), (0xFF29, "I"), (0xFF2A, "J"),
    (0xFF2B, "K"), (0xFF2C, "L"), (0xFF2D, "M"), (0xFF2E, "N"), (0xFF2F, "O"), (0xFF30, "P"),
    (0xFF31, "Q"), (0xFF32, "R"), (0xFF33, "S"), (0xFF34, "T"), (0xFF35, "U"), (0xFF36, "V"),
    (0xFF37, "W"), (0xFF38, "X"), (0xFF39, "Y"), (0xFF3A, "Z"), (0xFF3B, "["), (0xFF3C, "\\"),
    (0xFF3D, "]"), (0xFF3E, "^"), (0xFF3F, "_"), (0xFF40, "`"), (0xFF41, "a"), (0xFF42, "b"),
    (0xFF43, "c"), (0xFF44, "d"), (0xFF45, "e"), (0xFF46, "f"), (0xFF47, "g"), (0xFF48, "h"),
    (0xFF49, "i"), (0xFF4A, "j"), (0xFF4B, "k"), (0xFF4C, "l"), (0xFF4D, "m"), (0xFF4E, "n"),
    (0xFF4F, "o"), (0xFF50, "p"), (0xFF51, "q"), (0xFF52, "r"), (0xFF53, "s"), (0xFF54, "t"),
    (0xFF55, "u"), (0xFF56, "v"), (0xFF57, "w"), (0xFF58, "x"), (0xFF59, "y"), (0xFF5A, "z"),
    (0xFF5B, "\x7b"), (0xFF5C, "|"), (0xFF5D, "\x7d"), (0xFF5E, "~"), (0x1F600, ":grinning:")]

/-- The ASCII rendering of one character. -/
def asciiOfChar (c : Char) : List Char :=
  if c.toNat < 0x80 then
    [c]
  else
    match asciiRenderings.lookup c.toNat with
    | some rendering => rendering.toList
    | none => []

/-- The ASCII rendering of a text. -/
def transliterate (text : List Char) : List Char :=
  text.flatMap asciiOfChar

end TypedClient.Command
