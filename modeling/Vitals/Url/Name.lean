import Vitals.Url.Punycode

/-!
# Names of hosts

A name is read without regard to case and written in ASCII: `HostName.fold` says what each
character is read as, `HostName.isAllowed` which characters a name may have then, and
`HostName.toAscii?` writes the labels of a name. A label that is written in ASCII already has to
be the writing of some label. The table holds the letters of the European scripts; characters
of other scripts stand for themselves.
-/

namespace Vitals.HostName

/-! ## Characters that are read as others -/

/-- Characters that are read as others: every `step`th one from `first` to `last`, as the one at
the same distance from `target`. -/
structure FoldRun where
  first : Nat
  last : Nat
  step : Nat
  target : Nat

/-- Whether a run has the character of a number. -/
def FoldRun.covers (run : FoldRun) (n : Nat) : Bool :=
  run.first ≤ n && n ≤ run.last && (n - run.first) % run.step == 0

/-- Letters that are read as other letters, most of them as their lower case. -/
def foldRuns : List FoldRun :=
  [⟨0xaa, 0xaa, 1, 0x61⟩, ⟨0xb2, 0xb3, 1, 0x32⟩, ⟨0xb5, 0xb5, 1, 0x3bc⟩, ⟨0xb9, 0xb9, 1, 0x31⟩,
   ⟨0xba, 0xba, 1, 0x6f⟩, ⟨0xc0, 0xd6, 1, 0xe0⟩, ⟨0xd8, 0xde, 1, 0xf8⟩, ⟨0x100, 0x12e, 2, 0x101⟩,
   ⟨0x134, 0x136, 2, 0x135⟩, ⟨0x139, 0x13d, 2, 0x13a⟩, ⟨0x141, 0x147, 2, 0x142⟩,
   ⟨0x14a, 0x176, 2, 0x14b⟩, ⟨0x178, 0x178, 1, 0xff⟩, ⟨0x179, 0x17d, 2, 0x17a⟩,
   ⟨0x17f, 0x17f, 1, 0x73⟩, ⟨0x181, 0x181, 1, 0x253⟩, ⟨0x182, 0x184, 2, 0x183⟩,
   ⟨0x186, 0x186, 1, 0x254⟩, ⟨0x187, 0x187, 1, 0x188⟩, ⟨0x189, 0x18a, 1, 0x256⟩,
   ⟨0x18b, 0x18b, 1, 0x18c⟩, ⟨0x18e, 0x18e, 1, 0x1dd⟩, ⟨0x18f, 0x18f, 1, 0x259⟩,
   ⟨0x190, 0x190, 1, 0x25b⟩, ⟨0x191, 0x191, 1, 0x192⟩, ⟨0x193, 0x193, 1, 0x260⟩,
   ⟨0x194, 0x194, 1, 0x263⟩, ⟨0x196, 0x196, 1, 0x269⟩, ⟨0x197, 0x197, 1, 0x268⟩,
   ⟨0x198, 0x198, 1, 0x199⟩, ⟨0x19c, 0x19c, 1, 0x26f⟩, ⟨0x19d, 0x19d, 1, 0x272⟩,
   ⟨0x19f, 0x19f, 1, 0x275⟩, ⟨0x1a0, 0x1a4, 2, 0x1a1⟩, ⟨0x1a6, 0x1a6, 1, 0x280⟩,
   ⟨0x1a7, 0x1a7, 1, 0x1a8⟩, ⟨0x1a9, 0x1a9, 1, 0x283⟩, ⟨0x1ac, 0x1ac, 1, 0x1ad⟩,
   ⟨0x1ae, 0x1ae, 1, 0x288⟩, ⟨0x1af, 0x1af, 1, 0x1b0⟩, ⟨0x1b1, 0x1b2, 1, 0x28a⟩,
   ⟨0x1b3, 0x1b5, 2, 0x1b4⟩, ⟨0x1b7, 0x1b7, 1, 0x292⟩, ⟨0x1b8, 0x1b8, 1, 0x1b9⟩,
   ⟨0x1bc, 0x1bc, 1, 0x1bd⟩, ⟨0x1cd, 0x1db, 2, 0x1ce⟩, ⟨0x1de, 0x1ee, 2, 0x1df⟩,
   ⟨0x1f4, 0x1f4, 1, 0x1f5⟩, ⟨0x1f6, 0x1f6, 1, 0x195⟩, ⟨0x1f7, 0x1f7, 1, 0x1bf⟩,
   ⟨0x1f8, 0x21e, 2, 0x1f9⟩, ⟨0x220, 0x220, 1, 0x19e⟩, ⟨0x222, 0x232, 2, 0x223⟩,
   ⟨0x23a, 0x23a, 1, 0x2c65⟩, ⟨0x23b, 0x23b, 1, 0x23c⟩, ⟨0x23d, 0x23d, 1, 0x19a⟩,
   ⟨0x23e, 0x23e, 1, 0x2c66⟩, ⟨0x241, 0x241, 1, 0x242⟩, ⟨0x243, 0x243, 1, 0x180⟩,
   ⟨0x244, 0x244, 1, 0x289⟩, ⟨0x245, 0x245, 1, 0x28c⟩, ⟨0x246, 0x24e, 2, 0x247⟩,
   ⟨0x2b0, 0x2b2, 2, 0x68⟩, ⟨0x2b1, 0x2b1, 1, 0x266⟩, ⟨0x2b3, 0x2b3, 1, 0x72⟩,
   ⟨0x2b4, 0x2b4, 1, 0x279⟩, ⟨0x2b5, 0x2b5, 1, 0x27b⟩, ⟨0x2b6, 0x2b6, 1, 0x281⟩,
   ⟨0x2b7, 0x2b7, 1, 0x77⟩, ⟨0x2b8, 0x2b8, 1, 0x79⟩, ⟨0x2e0, 0x2e0, 1, 0x263⟩,
   ⟨0x2e1, 0x2e1, 1, 0x6c⟩, ⟨0x2e2, 0x2e2, 1, 0x73⟩, ⟨0x2e3, 0x2e3, 1, 0x78⟩,
   ⟨0x2e4, 0x2e4, 1, 0x295⟩, ⟨0x343, 0x343, 1, 0x313⟩, ⟨0x345, 0x345, 1, 0x3b9⟩,
   ⟨0x370, 0x372, 2, 0x371⟩, ⟨0x374, 0x374, 1, 0x2b9⟩, ⟨0x376, 0x376, 1, 0x377⟩,
   ⟨0x37e, 0x37e, 1, 0x3b⟩, ⟨0x37f, 0x37f, 1, 0x3f3⟩, ⟨0x386, 0x386, 1, 0x3ac⟩,
   ⟨0x387, 0x387, 1, 0xb7⟩, ⟨0x388, 0x38a, 1, 0x3ad⟩, ⟨0x38c, 0x38c, 1, 0x3cc⟩,
   ⟨0x38e, 0x38f, 1, 0x3cd⟩, ⟨0x391, 0x3a1, 1, 0x3b1⟩, ⟨0x3a3, 0x3ab, 1, 0x3c3⟩,
   ⟨0x3cf, 0x3cf, 1, 0x3d7⟩, ⟨0x3d0, 0x3d0, 1, 0x3b2⟩, ⟨0x3d1, 0x3d1, 1, 0x3b8⟩,
   ⟨0x3d2, 0x3d2, 1, 0x3c5⟩, ⟨0x3d3, 0x3d3, 1, 0x3cd⟩, ⟨0x3d4, 0x3d4, 1, 0x3cb⟩,
   ⟨0x3d5, 0x3d5, 1, 0x3c6⟩, ⟨0x3d6, 0x3d6, 1, 0x3c0⟩, ⟨0x3d8, 0x3ee, 2, 0x3d9⟩,
   ⟨0x3f0, 0x3f0, 1, 0x3ba⟩, ⟨0x3f1, 0x3f1, 1, 0x3c1⟩, ⟨0x3f2, 0x3f2, 1, 0x3c3⟩,
   ⟨0x3f4, 0x3f4, 1, 0x3b8⟩, ⟨0x3f5, 0x3f5, 1, 0x3b5⟩, ⟨0x3f7, 0x3f7, 1, 0x3f8⟩,
   ⟨0x3f9, 0x3f9, 1, 0x3c3⟩, ⟨0x3fa, 0x3fa, 1, 0x3fb⟩, ⟨0x3fd, 0x3ff, 1, 0x37b⟩,
   ⟨0x400, 0x40f, 1, 0x450⟩, ⟨0x410, 0x42f, 1, 0x430⟩, ⟨0x460, 0x480, 2, 0x461⟩,
   ⟨0x48a, 0x4be, 2, 0x48b⟩, ⟨0x4c1, 0x4cd, 2, 0x4c2⟩, ⟨0x4d0, 0x52e, 2, 0x4d1⟩,
   ⟨0x531, 0x556, 1, 0x561⟩, ⟨0x1e00, 0x1e94, 2, 0x1e01⟩, ⟨0x1e9b, 0x1e9b, 1, 0x1e61⟩,
   ⟨0x1ea0, 0x1efe, 2, 0x1ea1⟩]

/-- Characters that are read as several ones or as none. -/
def spellings : List (Nat × String) :=
  [(0xad, ""), (0xbc, "1⁄4"), (0xbd, "1⁄2"), (0xbe, "3⁄4"), (0x130, "i\u0307"), (0x132, "ij"),
   (0x133, "ij"), (0x13f, "l·"), (0x140, "l·"), (0x149, "ʼn"), (0x1c4, "dž"), (0x1c5, "dž"),
   (0x1c6, "dž"), (0x1c7, "lj"), (0x1c8, "lj"), (0x1c9, "lj"), (0x1ca, "nj"), (0x1cb, "nj"),
   (0x1cc, "nj"), (0x1f1, "dz"), (0x1f2, "dz"), (0x1f3, "dz"), (0x34f, ""), (0x4c0, "ӏ"),
   (0x587, "եւ"), (0x1e9a, "aʾ"), (0x1e9e, "ß"), (0x200b, ""), (0x2060, ""), (0x2064, ""),
   (0x3002, "."), (0xff61, "."), (0xfb00, "ff"), (0xfb01, "fi"), (0xfb02, "fl"), (0xfb03, "ffi"),
   (0xfb04, "ffl"), (0xfeff, "")]

/-- What a character of a name is read as. Wide forms are read as the ASCII characters that they
are forms of. -/
def fold (c : Char) : List Char :=
  let n := c.toNat
  if n < 0x80 then [c.toLower]
  else if 0xff01 ≤ n ∧ n ≤ 0xff5e then [(Char.ofNat (n - 0xfee0)).toLower]
  else
    match spellings.lookup n with
    | some spelling => spelling.toList
    | none =>
      match foldRuns.find? (·.covers n) with
      | some run => [Char.ofNat (run.target + (n - run.first))]
      | none => [c]

/-! ## Characters that a name may have -/

/-- Ranges of characters that no name has: controls, blanks, marks of direction, accents that
stand alone, and numbers that are no character or a private one. -/
def gaps : List (Nat × Nat) :=
  [(0x80, 0xa0), (0xa8, 0xa8), (0xaf, 0xaf), (0xb4, 0xb4), (0xb8, 0xb8), (0x2d8, 0x2dd),
   (0x378, 0x37a), (0x380, 0x385), (0x38b, 0x38b), (0x38d, 0x38d), (0x3a2, 0x3a2),
   (0x530, 0x530), (0x557, 0x558), (0x58b, 0x58c), (0x590, 0x590), (0x2000, 0x200f),
   (0x2028, 0x202f), (0x205f, 0x206f), (0x3000, 0x3000), (0xe000, 0xf8ff), (0xfff0, 0xffff),
   (0xe0000, 0x10ffff)]

/-- Whether a folded name may have a character outside of ASCII. -/
def isAllowed (c : Char) : Bool :=
  !gaps.any fun (first, last) => first ≤ c.toNat ∧ c.toNat ≤ last

/-- Whether a character belongs to the letter before it. -/
def isAccent (c : Char) : Bool := 0x300 ≤ c.toNat && c.toNat ≤ 0x36f

/-- Whether a label with other characters than those of ASCII is in order. -/
def isLabel (label : List Char) : Bool :=
  label.all (fun c => c.toNat < 0x80 || isAllowed c) && !label.head?.any isAccent

/-! ## Names in ASCII -/

/-- The beginning of a label that stands for one with other characters than those of ASCII. -/
def mark : List Char := ['x', 'n', '-', '-']

/-- A folded label in ASCII. -/
def labelToAscii? (label : List Char) : Option (List Char) :=
  if mark.isPrefixOf label then do
    let meant ← Punycode.decode? (label.drop mark.length)
    if isLabel meant && meant.any (0x80 ≤ ·.toNat) && meant.flatMap fold == meant then some label
    else none
  else if label.all (·.toNat < 0x80) then some label
  else if isLabel label then some (mark ++ Punycode.encode label)
  else none

/-- A name in ASCII. -/
def toAscii? (name : String) : Option (List Char) := do
  let labels ← ((name.toList.flatMap fold).splitOn '.').mapM labelToAscii?
  return (labels.intersperse ['.']).flatten

end Vitals.HostName
