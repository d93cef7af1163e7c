import Phrasebook.Text.Emoji
import Phrasebook.Text.Wide
/-!
# Width — the columns that a text takes in a terminal

A character by itself takes the columns that `charWidth` says, but neighbours may be drawn as one:
emoji behind joiners, flags, letters that merge.  Whether a character merges with what stands behind
it shows once that is known, so a text is read from its end, and a `Context` says what is known of
the part that was read.
-/
namespace Phrasebook.Text

namespace Width

/-! ## What stands behind a character -/

/-- A sequence of emoji under way: a joiner was read, and behind it an emoji.  What stands in front
of the joiner adds no columns as long as it turns out to be an emoji too. -/
inductive Chain where
  | joiner
  /-- The frame of a key cap. -/
  | keycap
  /-- One regional letter, the first of a further flag if no other stands in front. -/
  | region
  /-- Regional letters in pairs. -/
  | pairs
  /-- Regional letters in pairs and one more. -/
  | odd
  /-- The tags of a regional flag, from their end: letters, or digits behind which letters may
  stand. -/
  | tags (letters digits : Nat)
deriving DecidableEq, Repr

/-- The later part of letters that merge.  Where a joiner has to stand between them, `joined` says
that it was read. -/
inductive Ligature where
  | alef
  | lamed (joined : Bool)
  | ya (joined : Bool)
  | vowelAndYa
  | tifinagh (joined : Bool)
  | joinedTifinagh
  | lisuTone
  | orkhonI (joined : Bool)
  /-- A Khmer letter with a form below the line. -/
  | subscript
deriving DecidableEq, Repr

/-- What a text begins with, as far as a character in front of it may merge with that. -/
inductive Head where
  | plain
  | emoji
  | tone
  | region
  | regions
  | chain (chain : Chain)
  | ligature (ligature : Ligature)
  /-- The vowel sign E of Kirat Rai, which is written twice for AI. -/
  | vowelE
  | vowelAi
deriving DecidableEq, Repr

/-- What a selector asks for. -/
inductive Selector where
  | text
  | picture
  | fullWidth
deriving DecidableEq, Repr

/-- What stands behind a character. -/
structure Context where
  head     : Head := .plain
  /-- The selector in front of the head. -/
  selector : Option Selector := none
deriving DecidableEq, Repr

/-! ## Characters that merge -/

/-- The joiner of characters that are drawn as one. -/
def isJoiner (c : Char) : Bool := c == '\u200d'

def selector? (c : Char) : Option Selector :=
  match c.toNat with
  | 0xFE01 => some .fullWidth
  | 0xFE0E => some .text
  | 0xFE0F => some .picture
  | _      => none

/-- Quotation marks with a full-width form. -/
def isQuotation (c : Char) : Bool := inRanges [(0x2018, 0x2019), (0x201C, 0x201D)] c

/-- Arabic letters of the shape of lam. -/
def isLam (c : Char) : Bool :=
  inRanges [(0x644, 0x644), (0x6B5, 0x6B8), (0x76A, 0x76A), (0x8A6, 0x8A6), (0x8C7, 0x8C7)] c

/-- Arabic letters of the shape of alef. -/
def isAlef (c : Char) : Bool :=
  inRanges [(0x622, 0x623), (0x625, 0x625), (0x627, 0x627), (0x671, 0x673), (0x675, 0x675),
    (0x773, 0x774), (0x870, 0x882)] c

/-- Characters without a column between lam and alef that do not keep them apart. -/
def isTransparent (c : Char) : Bool :=
  (isNonspacing c && c != tifinaghJoiner) ||
    inRanges [(0xAD, 0xAD), (0x61C, 0x61C), (0x70F, 0x70F), (0x200B, 0x200B), (0x200E, 0x200F),
      (0x202A, 0x202E), (0x2060, 0x2064), (0x206A, 0x206F), (0xFEFF, 0xFEFF),
      (0x1BCA0, 0x1BCA3), (0x1D173, 0x1D17A), (0xE0001, 0xE0001), (0xE0020, 0xE007F)] c

/-- Marks that are shown as nothing; they keep no letters apart. -/
def isIgnorableMark (c : Char) : Bool := isIgnorable c && isNonspacing c

def isTifinagh (c : Char) : Bool := inRanges [(0x2D31, 0x2D65), (0x2D6F, 0x2D6F)] c

/-- Khmer letters whose form below the line takes no column of its own. -/
def isSubscriptable (c : Char) : Bool :=
  inRanges [(0x1780, 0x1782), (0x1784, 0x1787), (0x1789, 0x178C), (0x178E, 0x1793),
    (0x1795, 0x1798), (0x179B, 0x179D), (0x17A0, 0x17A0), (0x17A2, 0x17A2), (0x17A7, 0x17A7),
    (0x17AB, 0x17AC), (0x17AF, 0x17AF)] c

def isTagLetter (c : Char) : Bool := inRanges [(0xE0061, 0xE007A)] c

def isTagDigit (c : Char) : Bool := inRanges [(0xE0030, 0xE0039)] c

/-- What a character is to the one in front of it. -/
def Head.ofChar (c : Char) : Head :=
  if isTone c then .tone
  else if isRegional c then .region
  else if isEmoji c then .emoji
  else if isAlef c then .ligature .alef
  else if isTifinagh c then .ligature (.tifinagh false)
  else if isSubscriptable c then .ligature .subscript
  else
    match c.toNat with
    | 0x5DC      => .ligature (.lamed false)
    | 0x1A10     => .ligature (.ya false)
    | 0xA4FC     => .ligature .lisuTone
    | 0xA4FD     => .ligature .lisuTone
    | 0x10C03    => .ligature (.orkhonI false)
    | 0x16D67    => .vowelE
    | 0x16D68    => .vowelAi
    | _          => .plain

/-! ## One character in front of a context

The functions give the columns that the character adds to those of the part behind it, which is less
than none where that part loses a column, and what the whole begins with; or nothing where the
character merges with nothing. -/

/-- A character in front of a chain. -/
def Chain.extend (chain : Chain) (c : Char) : Option (Int × Head) :=
  match chain with
  | .joiner =>
    if c.toNat = 0x20E3 then some (0, .chain .keycap)
    else if isRegional c then some (1, .chain .region)
    else if isTone c then some (0, .tone)
    else if c.toNat = 0xE007F then some (0, .chain (.tags 0 0))
    else if isEmoji c then some (0, .emoji)
    else none
  | .keycap => none
  | .region => if isRegional c then some (-1, .chain .pairs) else none
  | .pairs  =>
    if isRegional c then some (3, .chain .odd)
    else if isJoiner c then some (0, .chain .joiner)
    else none
  | .odd    =>
    if isRegional c then some (-1, .chain .pairs)
    else if isJoiner c then some (0, .chain .joiner)
    else none
  | .tags letters digits =>
    if isTagLetter c && digits = 0 && letters < 6 then some (0, .chain (.tags (letters + 1) 0))
    else if isTagDigit c && digits = 0 && letters ≤ 4 then some (0, .chain (.tags letters 1))
    else if isTagDigit c && 0 < digits && digits < 3 then
      some (0, .chain (.tags letters (digits + 1)))
    else if c.toNat = 0x1F3F4 && (digits = 3 || (digits = 0 && 3 ≤ letters)) then some (0, .emoji)
    else none

/-- The ligature behind a joiner. -/
def Ligature.join : Ligature → Ligature
  | .lamed _    => .lamed true
  | .ya _       => .ya true
  | .tifinagh _ => .tifinagh true
  | .orkhonI _  => .orkhonI true
  | l           => l

/-- A letter in front of the later part of a ligature. -/
def Ligature.merge (l : Ligature) (c : Char) : Option (Int × Head) :=
  match l, c.toNat with
  | .lamed true,     0x5D0   => some (0, .plain)
  | .ya true,        0x1A17  => some (0, .ligature .vowelAndYa)
  | .vowelAndYa,     0x1A15  => some (0, .plain)
  | .tifinagh _,     0x2D7F  => some (1, .ligature .joinedTifinagh)
  | .tifinagh true,  _       => if isTifinagh c then some (0, .plain) else none
  | .joinedTifinagh, _       => if isTifinagh c then some (-1, .plain) else none
  | .lisuTone,       n       => if 0xA4F8 ≤ n && n ≤ 0xA4FB then some (0, .plain) else none
  | .orkhonI true,   0x10C32 => some (0, .plain)
  | .subscript,      0x17D2  => some (-1, .plain)
  | _,               _       => none

/-- A character in front of the later part of a ligature. -/
def Ligature.extend (l : Ligature) (c : Char) : Option (Int × Head) :=
  match l with
  | .alef =>
    if isLam c then some (0, .plain)
    else if isTransparent c then some (0, .ligature .alef)
    else none
  | l     =>
    if isJoiner c then some (0, .ligature l.join)
    else if isIgnorableMark c then some (0, .ligature l)
    else l.merge c

def Head.extend (head : Head) (c : Char) : Option (Int × Head) :=
  match head, c.toNat with
  | .plain,      _       => none
  | .emoji,      _       => if isJoiner c then some (0, .chain .joiner) else none
  | .tone,       _       =>
    if isToneable c then some (0, .emoji)
    else if isJoiner c then some (0, .chain .joiner)
    else none
  | .region,     _       => if isRegional c then some (1, .regions) else none
  | .regions,    _       =>
    if isRegional c then some (1, .regions)
    else if isJoiner c then some (0, .chain .joiner)
    else none
  | .chain ch,   _       => ch.extend c
  | .ligature l, _       => l.extend c
  | .vowelE,     0x16D63 => some (0, .plain)
  | .vowelE,     0x16D67 => some (0, .vowelAi)
  | .vowelE,     0x16D68 => some (1, .vowelE)
  | .vowelE,     0x16D69 => some (0, .plain)
  | .vowelE,     _       => none
  | .vowelAi,    0x16D63 => some (0, .plain)
  | .vowelAi,    _       => none

namespace Context

/-- The context with a selector in front.  Letters merge across it, and a chain goes on if it asks
for a picture. -/
def select (ctx : Context) (s : Selector) : Context :=
  match ctx.head, s with
  | .ligature l,     _        => ⟨.ligature l, some s⟩
  | .chain .joiner,  .picture => ⟨.chain .joiner, some s⟩
  | .chain .keycap,  .picture => ⟨.chain .keycap, some s⟩
  | _,               _        => ⟨.plain, some s⟩

/-- The context of a character that its selector says nothing about. -/
def deselect (ctx : Context) : Context :=
  match ctx.head with
  | .ligature l => ⟨.ligature l, none⟩
  | _           => {}

/-- Does a picture in front belong to a chain? -/
def isChained (ctx : Context) : Bool := ctx.head == .chain .joiner || ctx.head == .chain .keycap

/-- Reads a character with no selector behind it. -/
def readBare (ctx : Context) (c : Char) : Int × Context :=
  if c.toNat ≤ 0xA0 then (1, {})
  else
    match selector? c with
    | some s => (0, ctx.select s)
    | none   =>
      match ctx.head.extend c with
      | some (columns, head) => (columns, ⟨head, none⟩)
      | none                 => (charWidth c, ⟨.ofChar c, none⟩)

/-- Reads the character in front: the columns that it adds, and the context of the one in front of
it. -/
def read (ctx : Context) (c : Char) : Int × Context :=
  match ctx.selector with
  | none            => ctx.readBare c
  | some .picture   =>
    if isSelectable c then (if ctx.isChained then 0 else 2, ⟨.emoji, none⟩)
    else ctx.deselect.readBare c
  | some .text      => if isTextual c then (1, {}) else ctx.deselect.readBare c
  | some .fullWidth => if isQuotation c then (2, {}) else ctx.deselect.readBare c

end Context

/-! ## The whole text -/

/-- The columns of a text and what it begins with. -/
def measure (cs : List Char) : Int × Context :=
  cs.foldr (fun c (columns, ctx) =>
    let (added, ctx) := ctx.read c
    (columns + added, ctx)) (0, {})

end Width

def width (text : String) : Nat := (Width.measure text.toList).1.toNat

end Phrasebook.Text
