set_option autoImplicit false

/- White noise from a seed: the words of a ChaCha stream with eight rounds, two to a sample. The key
is spread from the seed by a small congruential generator. -/
namespace Songline.Noise

def rotateLeft (x : UInt32) (n : UInt32) : UInt32 := (x <<< n) ||| (x >>> (32 - n))

def rotateRight (x : UInt32) (n : UInt32) : UInt32 := (x >>> n) ||| (x <<< (32 - n))

/-- The state from which the next word of a key is taken. -/
def nextKeyState (state : UInt64) : UInt64 := state * 6364136223846793005 + 11634580027462260723

def keyWord (state : UInt64) : UInt32 :=
  rotateRight (((state >>> 18) ^^^ state) >>> 27).toUInt32 (state >>> 59).toUInt32

/-- `n` words of a key. -/
def keyWords : Nat → UInt64 → List UInt32
  | 0, _ => []
  | n + 1, state => keyWord (nextKeyState state) :: keyWords n (nextKeyState state)

/-- The key of a seed: eight words. -/
def key (seed : UInt64) : List UInt32 := keyWords 8 seed

abbrev Block := Vector UInt32 16

/-- One step of mixing four words. -/
def quarterRound (s : Block) (a b c d : Fin 16) : Block :=
  let s := s.set a (s[a] + s[b])
  let s := s.set d (rotateLeft (s[d] ^^^ s[a]) 16)
  let s := s.set c (s[c] + s[d])
  let s := s.set b (rotateLeft (s[b] ^^^ s[c]) 12)
  let s := s.set a (s[a] + s[b])
  let s := s.set d (rotateLeft (s[d] ^^^ s[a]) 8)
  let s := s.set c (s[c] + s[d])
  s.set b (rotateLeft (s[b] ^^^ s[c]) 7)

/-- A round over the columns and one over the diagonals. -/
def doubleRound (s : Block) : Block :=
  let s := quarterRound s 0 4 8 12
  let s := quarterRound s 1 5 9 13
  let s := quarterRound s 2 6 10 14
  let s := quarterRound s 3 7 11 15
  let s := quarterRound s 0 5 10 15
  let s := quarterRound s 1 6 11 12
  let s := quarterRound s 2 7 8 13
  quarterRound s 3 4 9 14

/-- The words that every block starts with. -/
def constant : List UInt32 := [0x61707865, 0x3320646E, 0x79622D32, 0x6B206574]

/-- The words that mixing starts from: a constant, the key, a counter and the number of the stream,
which is 0. -/
def initial (key : List UInt32) (counter : UInt64) : Block :=
  Vector.ofFn fun i =>
    (constant ++ key ++ [counter.toUInt32, (counter >>> 32).toUInt32, 0, 0]).getD i 0

def block (key : List UInt32) (counter : UInt64) : Block :=
  let start := initial key counter
  let mixed := doubleRound (doubleRound (doubleRound (doubleRound start)))
  Vector.zipWith (· + ·) mixed start

/-- A sample from -1 to 1 that two words of the stream give, the low word first. The upper 52 bits
become the places of a number from 1 to 2. -/
def sample (low high : UInt32) : Float :=
  let word := high.toUInt64 <<< 32 ||| low.toUInt64
  let unit := Float.ofBits (word >>> 12 ||| 0x3FF0000000000000) - 1.0
  unit * 2.0 + -1.0

def samplesOfBlock (b : Block) : Array Float :=
  Array.ofFn fun i : Fin 8 => sample b[2 * i.val] b[2 * i.val + 1]

/-- The first samples of a seed's noise, at least `n` of them. -/
def samples (seed : UInt64) (n : Nat) : Array Float :=
  let k := key seed
  (Array.range ((n + 7) / 8)).flatMap fun i => samplesOfBlock (block k (UInt64.ofNat i))

end Songline.Noise
