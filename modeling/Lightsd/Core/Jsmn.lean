import Mathlib

/-! # The JSON tokenizer

`jsmn_parse` in strict mode with parent links, on the bytes of a buffer. Without a
token array it only counts tokens and checks nothing but strings and primitives; with an
array of a given capacity it fills tokens in. The parent links are kept beside the
tokens, because nothing outside of the tokenizer reads them.
-/
namespace Lightsd.Core

inductive TokenType
  | object
  | array
  | string
  | primitive
  deriving DecidableEq

/-- A token of which `stop` is -1 is an object or an array that is still open. -/
structure Token where
  type : TokenType
  start : ℕ
  stop : ℤ
  size : ℕ
  deriving DecidableEq

inductive ParseError
  | nomem
  | inval
  | part
  deriving DecidableEq

namespace Jsmn

def isSpace (c : UInt8) : Bool := c = 9 || c = 13 || c = 10 || c = 32

def isHex (c : UInt8) : Bool := (48 ≤ c && c ≤ 57) || (65 ≤ c && c ≤ 70) || (97 ≤ c && c ≤ 102)

/-- What the main loop does with a character. -/
inductive CharKind
  | opening (type : TokenType)
  | closing (type : TokenType)
  | quote
  | space
  | colon
  | comma
  | primitive
  | unexpected
  deriving DecidableEq

def charKind (c : UInt8) : CharKind :=
  if c = 123 then .opening .object
  else if c = 91 then .opening .array
  else if c = 125 then .closing .object
  else if c = 93 then .closing .array
  else if c = 34 then .quote
  else if isSpace c then .space
  else if c = 58 then .colon
  else if c = 44 then .comma
  else if c = 45 || (48 ≤ c && c ≤ 57) || c = 116 || c = 102 || c = 110 then .primitive
  else .unexpected

/-- A primitive must be followed by white space, a comma or a closing bracket. -/
def endsPrimitive (c : UInt8) : Bool := isSpace c || c = 44 || c = 93 || c = 125

/-- The length of the primitive at the beginning of the bytes. -/
def parsePrimitive : List UInt8 → Except ParseError ℕ
  | [] => .error .part
  | c :: cs =>
    if c = 0 then .error .part
    else if endsPrimitive c then .ok 0
    else if c < 32 || 127 ≤ c then .error .inval
    else (· + 1) <$> parsePrimitive cs

/-- Where the scan of a string is: after an ordinary character, after a backslash, or with
some digits of a `\u` escape still to come. -/
inductive StringMode
  | plain
  | escape
  | hex (digits : ℕ)
  deriving DecidableEq

/-- The mode after a digit, with some digits still to come. -/
def StringMode.afterDigit : ℕ → StringMode
  | 0 => .plain
  | n + 1 => .hex n

def isEscape (c : UInt8) : Bool :=
  c = 34 || c = 47 || c = 92 || c = 98 || c = 102 || c = 114 || c = 110 || c = 116

/-- The length of the string whose opening quote has just been passed. -/
def parseString : StringMode → List UInt8 → Except ParseError ℕ
  | _, [] => .error .part
  | .plain, c :: cs =>
    if c = 0 then .error .part
    else if c = 34 then .ok 0
    else (· + 1) <$> parseString (if c = 92 then .escape else .plain) cs
  | .escape, c :: cs =>
    if isEscape c then (· + 1) <$> parseString .plain cs
    else if c = 117 then (· + 1) <$> parseString (.hex 3) cs
    else .error .inval
  | .hex digits, c :: cs =>
    if c = 0 then .error .part
    else if isHex c then (· + 1) <$> parseString (.afterDigit digits) cs
    else .error .inval

structure Parser where
  tokens : List Token := []
  parents : List (Option ℕ) := []
  toksuper : Option ℕ := none
  count : ℕ := 0
  deriving DecidableEq

namespace Parser

/-- Take the next token of the array, as a child of the superior token. -/
def add (p : Parser) (numTokens : ℕ) (tok : Token) : Except ParseError Parser :=
  if numTokens ≤ p.tokens.length then .error .nomem
  else .ok { p with
    tokens := (match p.toksuper with
      | none => p.tokens
      | some i => p.tokens.modify i (fun t => { t with size := t.size + 1 })) ++ [tok]
    parents := p.parents ++ [p.toksuper] }

/-- Walk up the parent links from a token to the one a closing bracket belongs to. A
bracket after everything has been closed is let through if the outermost token has its
type and there is a superior token. -/
def closeFrom (p : Parser) (type : TokenType) (pos : ℕ) : ℕ → ℕ → Except ParseError Parser
  | 0, _ => .error .inval
  | fuel + 1, i =>
    match p.tokens[i]?, p.parents[i]? with
    | some tok, some parent =>
      if tok.stop = -1 then
        if tok.type ≠ type then .error .inval
        else .ok { p with tokens := p.tokens.set i { tok with stop := pos + 1 }, toksuper := parent }
      else match parent with
        | none => if tok.type ≠ type ∨ p.toksuper = none then .error .inval else .ok p
        | some j => p.closeFrom type pos fuel j
    | _, _ => .error .inval

def close (p : Parser) (type : TokenType) (pos : ℕ) : Except ParseError Parser :=
  if p.tokens = [] then .error .inval
  else p.closeFrom type pos p.tokens.length (p.tokens.length - 1)

def superType (p : Parser) : Option TokenType := (p.toksuper.bind (p.tokens[·]?)).map Token.type

/-- A primitive is no key of an object, and no second value of a key. -/
def rejectsPrimitive (p : Parser) : Bool :=
  match p.toksuper.bind (p.tokens[·]?) with
  | some t => t.type = .object || (t.type = .string && t.size ≠ 0)
  | none => false

def addIf (p : Parser) (numTokens : Option ℕ) (tok : Token) : Except ParseError Parser :=
  match numTokens with
  | none => .ok p
  | some n => p.add n tok

end Parser

/-- One round of the main loop; besides the new state it gives the number of bytes that
were scanned beyond the character itself. -/
def parseChar (numTokens : Option ℕ) (p : Parser) (pos : ℕ) (c : UInt8) (cs : List UInt8) :
    Except ParseError (Parser × ℕ) :=
  match charKind c with
  | .opening type => do
    let p ← { p with count := p.count + 1 }.addIf numTokens ⟨type,pos,-1,0⟩
    if numTokens.isNone then .ok (p,0)
    else .ok ({ p with toksuper := some (p.tokens.length - 1) },0)
  | .closing type => if numTokens.isNone then .ok (p,0) else (·,0) <$> p.close type pos
  | .quote => do
    let n ← parseString .plain cs
    let p ← p.addIf numTokens ⟨.string,pos + 1,pos + 1 + n,0⟩
    .ok ({ p with count := p.count + 1 },n + 1)
  | .space => .ok (p,0)
  | .colon => .ok ({ p with toksuper := if p.tokens = [] then none else some (p.tokens.length - 1) },0)
  | .comma =>
    if p.superType = some .string ∨ p.superType = some .primitive then
      .ok ({ p with toksuper := p.toksuper.bind (fun i => p.parents.getD i none) },0)
    else .ok (p,0)
  | .primitive => do
    if p.rejectsPrimitive then .error .inval
    else
      let n ← parsePrimitive (c :: cs)
      let p ← p.addIf numTokens ⟨.primitive,pos,pos + n,0⟩
      .ok ({ p with count := p.count + 1 },n - 1)
  | .unexpected => .error .inval

/-- The main loop from a position on. The bytes of a string or a primitive have been
scanned already when the loop comes to them, and are skipped. -/
def parseLoop (numTokens : Option ℕ) : ℕ → ℕ → List UInt8 → Parser → Except ParseError Parser
  | _, _, [], p => .ok p
  | skip + 1, pos, _ :: cs, p => parseLoop numTokens skip (pos + 1) cs p
  | 0, pos, c :: cs, p =>
    if c = 0 then .ok p
    else match parseChar numTokens p pos c cs with
      | .error e => .error e
      | .ok (p,skip) => parseLoop numTokens skip (pos + 1) cs p

/-- The final check: with a token array, nothing may be left open. -/
def finish (p : Parser) : Except ParseError Parser :=
  if p.tokens.any (fun t => t.stop = -1) then .error .part else .ok p

def parse (js : List UInt8) (numTokens : Option ℕ) : Except ParseError Parser :=
  parseLoop numTokens 0 0 js {} >>= finish

end Jsmn
end Lightsd.Core
