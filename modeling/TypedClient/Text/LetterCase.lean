/-!
# Letter case beyond ASCII

The upper-case form of a character may be several characters. The simple forms
are runs of letters at a fixed distance from their partners; the others are
listed one by one.
-/

namespace TypedClient.Text

/-- A run of lower-case letters, every `stride`-th code from `first` to `last`,
whose upper-case partners lie `distance` codes before them. -/
structure CaseRun where
  first : Nat
  last : Nat
  stride : Nat
  distance : Nat

def CaseRun.covers (run : CaseRun) (code : Nat) : Bool :=
  run.first ≤ code && code ≤ run.last && (code - run.first) % run.stride == 0

/-- The runs of the alphabets with case. -/
def caseRuns : List CaseRun :=
  [⟨0x61, 0x7A, 1, 32⟩, ⟨0xE0, 0xF6, 1, 32⟩, ⟨0xF8, 0xFE, 1, 32⟩,
    ⟨0x101, 0x12F, 2, 1⟩, ⟨0x133, 0x137, 2, 1⟩, ⟨0x13A, 0x148, 2, 1⟩,
    ⟨0x14B, 0x177, 2, 1⟩, ⟨0x17A, 0x17E, 2, 1⟩, ⟨0x1C6, 0x1CC, 3, 2⟩,
    ⟨0x1C5, 0x1CB, 3, 1⟩, ⟨0x1CE, 0x1DC, 2, 1⟩, ⟨0x1DF, 0x1EF, 2, 1⟩,
    ⟨0x1F3, 0x1F3, 1, 2⟩, ⟨0x1F2, 0x1F2, 1, 1⟩, ⟨0x1F5, 0x1F5, 1, 1⟩,
    ⟨0x1F9, 0x21F, 2, 1⟩, ⟨0x223, 0x233, 2, 1⟩, ⟨0x3AC, 0x3AC, 1, 38⟩,
    ⟨0x3AD, 0x3AF, 1, 37⟩, ⟨0x3B1, 0x3C1, 1, 32⟩, ⟨0x3C2, 0x3C2, 1, 31⟩,
    ⟨0x3C3, 0x3CB, 1, 32⟩, ⟨0x3CC, 0x3CC, 1, 64⟩, ⟨0x3CD, 0x3CE, 1, 63⟩,
    ⟨0x430, 0x44F, 1, 32⟩, ⟨0x450, 0x45F, 1, 80⟩, ⟨0x461, 0x481, 2, 1⟩,
    ⟨0x48B, 0x4BF, 2, 1⟩, ⟨0x4C2, 0x4CE, 2, 1⟩, ⟨0x4D1, 0x52F, 2, 1⟩,
    ⟨0x561, 0x586, 1, 48⟩, ⟨0x1E01, 0x1E95, 2, 1⟩, ⟨0x1EA1, 0x1EFF, 2, 1⟩,
    ⟨0x2170, 0x217F, 1, 16⟩, ⟨0x24D0, 0x24E9, 1, 26⟩, ⟨0xFF41, 0xFF5A, 1, 32⟩,
    ⟨0x10428, 0x1044F, 1, 40⟩]

/-- Upper-case forms that are irregular or longer than one character. -/
def irregularUpper : List (Nat × String) :=
  [(0xB5, "\u039C"), (0xDF, "SS"), (0xFF, "\u0178"), (0x131, "I"), (0x149, "\u02BCN"),
    (0x17F, "S"), (0x1DD, "\u018E"), (0x1F0, "J\u030C"), (0x390, "\u0399\u0308\u0301"),
    (0x3B0, "\u03A5\u0308\u0301"), (0x4CF, "\u04C0"), (0x587, "\u0535\u0552"),
    (0x1E96, "H\u0331"), (0x1E97, "T\u0308"), (0x1E98, "W\u030A"), (0x1E99, "Y\u030A"),
    (0x1E9A, "A\u02BE"), (0xFB00, "FF"), (0xFB01, "FI"), (0xFB02, "FL"), (0xFB03, "FFI"),
    (0xFB04, "FFL"), (0xFB05, "ST"), (0xFB06, "ST"), (0xFB13, "\u0544\u0546"),
    (0xFB14, "\u0544\u0535"), (0xFB15, "\u0544\u053B"), (0xFB16, "\u054E\u0546"),
    (0xFB17, "\u0544\u053D")]

/-- The upper-case form of a character. -/
def upperChars (c : Char) : List Char :=
  match irregularUpper.lookup c.toNat with
  | some upper => upper.toList
  | none =>
      match caseRuns.find? (·.covers c.toNat) with
      | some run => [Char.ofNat (c.toNat - run.distance)]
      | none => [c]

/-- A text with its first character raised and the rest kept. -/
def capitalize (text : String) : String :=
  match text.toList with
  | [] => ""
  | first :: rest => String.ofList (upperChars first ++ rest)

end TypedClient.Text
