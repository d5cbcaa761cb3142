import SimplexMethod.Scalar

/-!
# The Mersenne twister

A generator of 32-bit words with 624 words of state, seeded by the words of an integer. A uniform
draw takes two words and gives one of the `2 ^ 53` multiples of `2 ^ (-53)` in the unit interval,
the right end excluded.
-/

namespace SimplexMethod.Random

/-- The number of values a uniform draw can take, `2 ^ 53`. -/
def drawCount : Nat := 9007199254740992

/-- The words of the state and how many of them have been given out. -/
structure Twister where
  words : Array UInt32
  used : Nat

/-- The number of words there are. -/
def wordCount : Nat := 4294967296

/-- The number of words of the state. -/
def stateSize : Nat := 624

/-- The words of a natural number, the least significant one first; zero has one word. -/
def wordsOf (n : Nat) : List UInt32 :=
  if _h : n < wordCount then [UInt32.ofNat n]
  else UInt32.ofNat (n % wordCount) :: wordsOf (n / wordCount)
termination_by n
decreasing_by
  unfold wordCount at *
  omega

/-- Mix a word with its upper bits. -/
def mixUpper (word : UInt32) : UInt32 :=
  word ^^^ (word >>> 30)

/-- The state grown from one word: each word is a multiple of the one before it, mixed, plus its
position. -/
def grow (seed : UInt32) : Array UInt32 :=
  (List.range (stateSize - 1)).foldl
    (fun words i => words.push (1812433253 * mixUpper (words.getD i 0) + UInt32.ofNat (i + 1)))
    #[seed]

/-- A pass over the state in a circle that leaves the first word out: the word at the cursor is
replaced, and the last word becomes the first one whenever the end is reached. -/
structure Pass where
  words : Array UInt32
  cursor : Nat

/-- Replace the word at the cursor by a rule that sees it and its mixed predecessor. -/
def Pass.advance (pass : Pass) (rule : UInt32 → UInt32 → UInt32) : Pass :=
  let previous := mixUpper (pass.words.getD (pass.cursor - 1) 0)
  let word := rule (pass.words.getD pass.cursor 0) previous
  let words := pass.words.setIfInBounds pass.cursor word
  if pass.cursor + 1 < stateSize then ⟨words, pass.cursor + 1⟩
  else ⟨words.setIfInBounds 0 (words.getD (stateSize - 1) 0), 1⟩

/-- The state seeded by a list of words, each of which is mixed in at least once. -/
def seedWords (key : List UInt32) : Array UInt32 :=
  let length := key.length
  let first := (List.range (max stateSize length)).foldl
    (fun pass k =>
      let j := k % length
      pass.advance fun word previous =>
        (word ^^^ (previous * 1664525)) + key.getD j 0 + UInt32.ofNat j)
    (⟨grow 19650218, 1⟩ : Pass)
  let second := (List.range (stateSize - 1)).foldl
    (fun pass _ =>
      pass.advance fun word previous => (word ^^^ (previous * 1566083941))
        - UInt32.ofNat pass.cursor)
    first
  second.words.setIfInBounds 0 0x80000000

/-- The generator seeded by the magnitude of an integer. -/
def Twister.ofSeed (seed : Int) : Twister :=
  ⟨seedWords (wordsOf seed.natAbs), stateSize⟩

/-- The next state: each word is made of the upper bit of the word in its place, the lower bits of
the word after it, and the word 397 places on, all taken as they stand at that moment. -/
def twist (words : Array UInt32) : Array UInt32 :=
  (List.range stateSize).foldl
    (fun words i =>
      let mixed := (words.getD i 0 &&& 0x80000000)
        ||| (words.getD ((i + 1) % stateSize) 0 &&& 0x7fffffff)
      let odd : UInt32 := if mixed &&& 1 = 0 then 0 else 0x9908b0df
      words.setIfInBounds i (words.getD ((i + 397) % stateSize) 0 ^^^ (mixed >>> 1) ^^^ odd))
    words

/-- Spread the bits of a word of the state. -/
def temper (word : UInt32) : UInt32 :=
  let word := word ^^^ (word >>> 11)
  let word := word ^^^ ((word <<< 7) &&& 0x9d2c5680)
  let word := word ^^^ ((word <<< 15) &&& 0xefc60000)
  word ^^^ (word >>> 18)

namespace Twister

/-- The next word, and the generator after it. -/
def next (twister : Twister) : UInt32 × Twister :=
  let ready := if twister.used < stateSize then twister else ⟨twist twister.words, 0⟩
  (temper (ready.words.getD ready.used 0), { ready with used := ready.used + 1 })

/-- The numerator of a uniform draw: 27 bits of one word, then 26 bits of the next. -/
def draw (twister : Twister) : Nat × Twister :=
  let (a, twister) := twister.next
  let (b, twister) := twister.next
  ((a >>> 5).toNat * 67108864 + (b >>> 6).toNat, twister)

variable {α : Type} [Scalar α]

/-- A uniform draw between two numbers, the upper one excluded. -/
def uniform (low high : α) (twister : Twister) : α × Twister :=
  let (numerator, twister) := twister.draw
  (low + (high - low) * (Scalar.ofNat numerator / Scalar.ofNat drawCount), twister)

/-- Uniform draws one after another. -/
def uniforms (low high : α) : Nat → Twister → List α × Twister
  | 0, twister => ([], twister)
  | count + 1, twister =>
    let (value, twister) := uniform low high twister
    let (values, twister) := uniforms low high count twister
    (value :: values, twister)

end Twister

end SimplexMethod.Random
