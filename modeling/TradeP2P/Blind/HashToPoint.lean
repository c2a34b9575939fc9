import TradeP2P.Lib.Rejection
import TradeP2P.Blind.ProverCore
import TradeP2P.Blind.Sign

/-! Hashing a message to the ring, as the signer's code has it: it asks for a prefix of the output of SHAKE256,
draws words from it, and asks for a longer prefix when it has come to the end. The prover reads the same output
two bytes at a time. -/
namespace TradeP2P.Blns7933
open Wire (Bytes)
open Checks

def shakePrefixChunkBytes : Nat := 4096

def sizeMax : Nat := 18446744073709551615

section Drawing
-- The output of SHAKE256 for a message, byte by byte and without end.
variable (shake : Bytes → Nat → UInt8)

def shake256Prefix (message : Bytes) (outputSize : Nat) : Bytes := (List.range outputSize).map (shake message)

structure Drawing where
  stream : Bytes
  pos : Nat := 0
  out : PolyQ := []

def Drawing.refill (message : Bytes) (s : Drawing) : Except Error Drawing := do
  throwIf (s.stream.length > sizeMax - shakePrefixChunkBytes)
    (.logicError "BLNS7933 hash_to_point: SHAKE256 prefix length overflow")
  return { s with stream := shake256Prefix shake message (s.stream.length + shakePrefixChunkBytes), pos := s.stream.length }

def Drawing.draw (rejectAt q : Nat) (s : Drawing) : Drawing :=
  let w := (s.stream.getD s.pos 0).toNat <<< 8 ||| (s.stream.getD (s.pos + 1) 0).toNat
  { s with pos := s.pos + 2, out := if w < rejectAt then s.out ++ [((w % q : Nat) : Int)] else s.out }

def drawLoop (ring : RingArithmetic) (message : Bytes) : Nat → Drawing → Option (Except Error PolyQ)
  | 0, _ => none
  | rounds + 1, s =>
      if s.out.length < ring.degree then
        match if s.pos + 2 > s.stream.length then s.refill shake message else .ok s with
        | .ok s => drawLoop ring message rounds (s.draw (5 * ring.modulus) ring.modulus)
        | .error e => some (.error e)
      else some (.ok s.out)

/- The loop may run as long as it likes; here it is cut off after a number of rounds. -/
def hashToPoint (ring : RingArithmetic) (message : Bytes) (rounds : Nat) : Option (Except Error PolyQ) :=
  if ring.modulus > 65535 / 5 then
    some (.error (.invalidArgument "BLNS7933 hash_to_point: modulus must satisfy 0 < 5*q < 2^16"))
  else drawLoop shake ring message rounds { stream := shake256Prefix shake message shakePrefixChunkBytes }

/-! What the loop has drawn. -/

def wordAt (message : Bytes) (k : Nat) : Nat := (shake message (2 * k)).toNat <<< 8 ||| (shake message (2 * k + 1)).toNat

def Accepted (q : Nat) (message : Bytes) (k : Nat) : Prop := wordAt shake message k < 5 * q

instance acceptedDecidable (q : Nat) (message : Bytes) : DecidablePred (Accepted shake q message) :=
  fun k => inferInstanceAs (Decidable (wordAt shake message k < 5 * q))

/- The first accepted words, reduced. -/
noncomputable def firstWords (q : Nat) (message : Bytes) (count : Nat) : PolyQ :=
  Rejection.first (Accepted shake q message) (fun k => ((wordAt shake message k % q : Nat) : Int)) count

/- The words in the longest prefix whose length is still a multiple of the chunk. -/
def wordsInReach : Nat := 9223372036854773760

/- After `k` words: nothing was skipped, nothing was drawn twice. -/
structure Drawn (q : Nat) (message : Bytes) (k : Nat) (s : Drawing) : Prop where
  stream : ∃ chunks, s.stream = shake256Prefix shake message (chunks * shakePrefixChunkBytes)
  inReach : s.stream.length ≤ 2 * wordsInReach
  pos : s.pos = 2 * k
  within : 2 * k ≤ s.stream.length
  out : s.out = firstWords shake q message (Nat.count (Accepted shake q message) k)

variable {shake} {q k : Nat} {message : Bytes} {s : Drawing}

theorem prefixLength (size : Nat) : (shake256Prefix shake message size).length = size := by simp [shake256Prefix]

theorem prefixByte {size i : Nat} (inside : i < size) : (shake256Prefix shake message size).getD i 0 = shake message i := by
  simp [shake256Prefix, List.getD_eq_getElem?_getD, inside]

theorem Drawn.outLength (drawn : Drawn shake q message k s) : s.out.length = Nat.count (Accepted shake q message) k :=
  (congrArg List.length drawn.out).trans (Rejection.firstLength _ _ _)

theorem Drawn.chunked (drawn : Drawn shake q message k s) : ∃ chunks, s.stream.length = chunks * 4096 := by
  obtain ⟨chunks, made⟩ := drawn.stream
  exact ⟨chunks, by rw [made, prefixLength]; rfl⟩

theorem Drawn.refilled (drawn : Drawn shake q message k s) (dry : s.pos + 2 > s.stream.length) (more : k < wordsInReach) :
    ∃ s', s.refill shake message = .ok s' ∧ Drawn shake q message k s' ∧ s'.pos + 2 ≤ s'.stream.length := by
  obtain ⟨chunks, width⟩ := drawn.chunked
  have pos := drawn.pos
  have within := drawn.within
  have inReach := drawn.inReach
  have last : s.stream.length = 2 * k := by omega
  have fits : ¬s.stream.length > sizeMax - shakePrefixChunkBytes := by
    unfold sizeMax shakePrefixChunkBytes
    unfold wordsInReach at more
    omega
  have grown : (shake256Prefix shake message (s.stream.length + shakePrefixChunkBytes)).length = s.stream.length + 4096 := by
    rw [prefixLength, shakePrefixChunkBytes]
  refine ⟨_, check_ok.mpr ⟨throwIf_not fits, rfl⟩, ⟨⟨chunks + 1, ?_⟩, ?_, last, ?_, drawn.out⟩, ?_⟩
  · rw [width, add_mul, one_mul, shakePrefixChunkBytes]
  · rw [grown]
    unfold wordsInReach at more ⊢
    omega
  · rw [grown]
    omega
  · dsimp only
    rw [grown]
    omega

theorem Drawn.next (drawn : Drawn shake q message k s) (there : s.pos + 2 ≤ s.stream.length) :
    Drawn shake q message (k + 1) (s.draw (5 * q) q) := by
  obtain ⟨chunks, made⟩ := drawn.stream
  have width : s.stream.length = chunks * shakePrefixChunkBytes := by rw [made, prefixLength]
  have pos := drawn.pos
  have word : (s.stream.getD s.pos 0).toNat <<< 8 ||| (s.stream.getD (s.pos + 1) 0).toNat = wordAt shake message k := by
    rw [made, prefixByte (by omega), prefixByte (by omega), pos]
    rfl
  refine ⟨drawn.stream, drawn.inReach, ?_, ?_, ?_⟩
  · rw [Drawing.draw, pos]
    rfl
  · dsimp only [Drawing.draw]
    omega
  · rw [Drawing.draw, word, drawn.out]
    by_cases accepted : wordAt shake message k < 5 * q
    · exact (if_pos accepted).trans (Rejection.firstKept (Accepted shake q message) _ accepted).symm
    · exact (if_neg accepted).trans (Rejection.firstRejected (Accepted shake q message) _ accepted).symm

variable {ring : RingArithmetic}

theorem Drawn.round (drawn : Drawn shake ring.modulus message k s) (missing : Nat.count (Accepted shake ring.modulus message) k < ring.degree)
    (more : k < wordsInReach) (rounds : Nat) : ∃ s', Drawn shake ring.modulus message (k + 1) s' ∧
      drawLoop shake ring message (rounds + 1) s = drawLoop shake ring message rounds s' := by
  have short : s.out.length < ring.degree := drawn.outLength.trans_lt missing
  rw [drawLoop, if_pos short]
  by_cases dry : s.pos + 2 > s.stream.length
  · obtain ⟨refilled, ran, kept, there⟩ := drawn.refilled dry more
    rw [if_pos dry, ran]
    exact ⟨_, kept.next there, rfl⟩
  · rw [if_neg dry]
    exact ⟨_, drawn.next (by omega), rfl⟩

/- From `k` words to any later number of them, as long as words are missing. -/
theorem Drawn.rounds (drawn : Drawn shake ring.modulus message k s) {last : Nat} (le : k ≤ last) (inReach : last ≤ wordsInReach)
    (missing : ∀ j < last, Nat.count (Accepted shake ring.modulus message) j < ring.degree) (more : Nat) :
    ∃ s', Drawn shake ring.modulus message last s' ∧
      drawLoop shake ring message (last - k + more) s = drawLoop shake ring message more s' := by
  generalize gap : last - k = span
  induction span generalizing k s with
  | zero =>
      obtain rfl : k = last := by omega
      exact ⟨s, drawn, by rw [Nat.zero_add]⟩
  | succ span ih =>
      obtain ⟨s', drawn', ran⟩ := drawn.round (missing k (by omega)) (by omega) (span + more)
      obtain ⟨s'', drawn'', ran'⟩ := ih drawn' (by omega) (by omega)
      exact ⟨s'', drawn'', by rw [show span + 1 + more = span + more + 1 by omega, ran, ran']⟩

theorem startDrawn : Drawn shake q message 0 { stream := shake256Prefix shake message shakePrefixChunkBytes } where
  stream := ⟨1, by rw [one_mul]⟩
  inReach := by
    rw [prefixLength]
    unfold shakePrefixChunkBytes wordsInReach
    omega
  pos := rfl
  within := Nat.zero_le _
  out := rfl

theorem countMissing {last count : Nat} (reached : Nat.count (Accepted shake q message) last = count)
    (first : ∀ j < last, Nat.count (Accepted shake q message) j ≠ count) (j : Nat) (before : j < last) :
    Nat.count (Accepted shake q message) j < count :=
  lt_of_le_of_ne (reached ▸ Nat.count_monotone _ before.le) (first j before)

theorem hashToPointReturns (small : 5 * ring.modulus < 65536)
    (enough : ring.degree ≤ Nat.count (Accepted shake ring.modulus message) wordsInReach) :
    ∃ enoughRounds, ∀ rounds, enoughRounds ≤ rounds →
      hashToPoint shake ring message rounds = some (.ok (firstWords shake ring.modulus message ring.degree)) := by
  obtain ⟨j, inReach, reached⟩ := Rejection.firstReached _ enough
  have existsOne : ∃ last, Nat.count (Accepted shake ring.modulus message) last = ring.degree := ⟨j, reached⟩
  have least := Nat.find_spec existsOne
  have le : Nat.find existsOne ≤ wordsInReach := (Nat.find_min' existsOne reached).trans inReach
  refine ⟨Nat.find existsOne + 1, fun rounds many => ?_⟩
  obtain ⟨more, rfl⟩ := Nat.exists_eq_add_of_le many
  obtain ⟨s', drawn, ran⟩ := (startDrawn (q := ring.modulus)).rounds (Nat.zero_le _) le
    (countMissing least fun j before => Nat.find_min existsOne before) (more + 1)
  rw [hashToPoint, if_neg (by omega), show Nat.find existsOne + 1 + more = Nat.find existsOne - 0 + (more + 1) by omega, ran,
    drawLoop, if_neg (drawn.outLength.trans least).not_lt, drawn.out, least]

/- Where too few words are in reach, the last refill is refused. -/
theorem hashToPointOverflows (small : 5 * ring.modulus < 65536)
    (missing : Nat.count (Accepted shake ring.modulus message) wordsInReach < ring.degree) :
    ∃ enoughRounds, ∀ rounds, enoughRounds ≤ rounds → hashToPoint shake ring message rounds =
      some (.error (.logicError "BLNS7933 hash_to_point: SHAKE256 prefix length overflow")) := by
  refine ⟨wordsInReach + 1, fun rounds many => ?_⟩
  obtain ⟨more, rfl⟩ := Nat.exists_eq_add_of_le many
  obtain ⟨s', drawn, ran⟩ := (startDrawn (q := ring.modulus)).rounds (Nat.zero_le _) le_rfl
    (fun j before => (Nat.count_monotone _ before.le).trans_lt missing) (more + 1)
  have pos := drawn.pos
  have within := drawn.within
  have inReach := drawn.inReach
  have short : s'.out.length < ring.degree := drawn.outLength.trans_lt missing
  have full : s'.stream.length > sizeMax - shakePrefixChunkBytes := by
    unfold sizeMax shakePrefixChunkBytes
    unfold wordsInReach at within
    omega
  rw [hashToPoint, if_neg (by omega), show wordsInReach + 1 + more = wordsInReach - 0 + (more + 1) by omega, ran, drawLoop,
    if_pos short, if_pos (by omega), Drawing.refill, throwIf_bad full]
  rfl

/-! The prover's loop, which reads the output of the hash of 32 bytes word for word. -/

variable (shake)

def streamHashes (sha256 : Bytes → Vector UInt8 32) : Prover.Hashes where
  sha256 := sha256
  shake256 := shake256Prefix shake
  outputLength _ _ := prefixLength _
  outputExtends _ _ _ le := by rw [shake256Prefix, shake256Prefix, ← List.map_take, List.take_range, Nat.min_eq_left le]

/- The output from word `k` on. -/
def wordBytes (message : Bytes) (k words : Nat) : Bytes := (List.range' (2 * k) (2 * words)).map (shake message)

variable {shake}

theorem prefixWords (words : Nat) : shake256Prefix shake message (2 * words) = wordBytes shake message 0 words := by
  rw [shake256Prefix, wordBytes, List.range_eq_range']

theorem wordBytesCons (words : Nat) : wordBytes shake message k (words + 1) =
    shake message (2 * k) :: shake message (2 * k + 1) :: wordBytes shake message (k + 1) words := by
  rw [wordBytes, show 2 * (words + 1) = 2 * words + 1 + 1 by omega, List.range'_succ, List.range'_succ, List.map_cons, List.map_cons]
  rfl

/- With `missing` accepted words among the next ones, these are what the loop collects. -/
theorem rejectionSampleFirst {limit missing words : Nat} (limited : limit = 5 * q)
    (enough : Nat.count (Accepted shake q message) k + missing ≤ Nat.count (Accepted shake q message) (k + words)) :
    Prover.rejectionSample (fun high low => high.toNat <<< 8 ||| low.toNat) limit missing (wordBytes shake message k words) =
      some ((List.range missing).map fun i => Int64.ofInt
        (wordAt shake message (Nat.nth (Accepted shake q message) (Nat.count (Accepted shake q message) k + i)) % 7933 : Nat)) := by
  subst limited
  induction words generalizing k missing with
  | zero =>
      obtain rfl : missing = 0 := by simpa using enough
      simp [Prover.rejectionSample]
  | succ words ih =>
      cases missing with
      | zero => simp [Prover.rejectionSample]
      | succ missing =>
          have counted := Nat.count_succ (Accepted shake q message) k
          have shifted : k + (words + 1) = k + 1 + words := by omega
          rw [shifted] at enough
          rw [wordBytesCons, Prover.rejectionSample]
          by_cases accepted : wordAt shake message k < 5 * q
          · have kept : Accepted shake q message k := accepted
            rw [if_pos kept] at counted
            refine (if_pos accepted).trans ?_
            rw [ih (by omega), counted, List.range_succ_eq_map, List.map_cons, List.map_map, Option.map_some, add_zero,
              Nat.nth_count kept]
            congr 3
            funext i
            rw [Function.comp_apply, Nat.succ_eq_add_one, show ∀ c, c + 1 + i = c + (i + 1) by omega]
          · have rejected : ¬Accepted shake q message k := accepted
            rw [if_neg rejected, add_zero] at counted
            refine (if_neg accepted).trans ?_
            rw [ih (by omega), counted]

theorem proverFirstWords {sha256 : Bytes → Vector UInt8 32} {digest : Vector UInt8 32} {draws : Nat}
    (enough : 512 ≤ Nat.count (Accepted shake 7933 digest.toList) draws) :
    Prover.hashToPoint (streamHashes shake sha256) draws digest =
      some ((firstWords shake 7933 digest.toList 512).map Int64.ofInt) := by
  have counted : Nat.count (Accepted shake 7933 digest.toList) 0 + Prover.n ≤
      Nat.count (Accepted shake 7933 digest.toList) (0 + draws) := by
    rw [Nat.count_zero, Nat.zero_add, Nat.zero_add]
    exact enough
  rw [Prover.hashToPoint, streamHashes]
  dsimp only
  rw [prefixWords, rejectionSampleFirst (by rfl) counted, firstWords, Rejection.first, List.map_map, Nat.count_zero]
  simp only [Nat.zero_add]
  rfl

theorem countAll (all : ∀ k, Accepted shake q message k) (words : Nat) : Nat.count (Accepted shake q message) words = words :=
  Nat.count_iff_forall.mpr fun k _ => all k

theorem countNone {words : Nat} (none : ∀ k < words, ¬Accepted shake q message k) :
    Nat.count (Accepted shake q message) words = 0 :=
  Nat.count_iff_forall_not.mpr none

end Drawing

/- As far as a prefix can reach, the signer's loop returns the first accepted words, and so does the prover's; beyond
that the signer's loop gives up. -/
theorem hashToPointFirstWords (shake : Bytes → Nat → UInt8) (ring : RingArithmetic) (message : Bytes)
    (small : 5 * ring.modulus < 65536) :
    (ring.degree ≤ Nat.count (Accepted shake ring.modulus message) wordsInReach → ∃ enough, ∀ rounds, enough ≤ rounds →
      hashToPoint shake ring message rounds = some (.ok (firstWords shake ring.modulus message ring.degree))) ∧
    (Nat.count (Accepted shake ring.modulus message) wordsInReach < ring.degree → ∃ enough, ∀ rounds, enough ≤ rounds →
      hashToPoint shake ring message rounds =
        some (.error (.logicError "BLNS7933 hash_to_point: SHAKE256 prefix length overflow"))) ∧
    ∀ (sha256 : Bytes → Vector UInt8 32) (digest : Vector UInt8 32),
      512 ≤ Nat.count (Accepted shake 7933 digest.toList) wordsInReach → ∃ enough, ∀ rounds, enough ≤ rounds →
        hashToPoint shake productionRing digest.toList rounds = some (.ok (firstWords shake 7933 digest.toList 512)) ∧
        Prover.hashToPoint (streamHashes shake sha256) rounds digest =
          some ((firstWords shake 7933 digest.toList 512).map Int64.ofInt) := by
  refine ⟨hashToPointReturns small, hashToPointOverflows small, fun sha256 digest enough => ?_⟩
  obtain ⟨rounds, returned⟩ := hashToPointReturns (by decide : 5 * productionRing.modulus < 65536) enough
  refine ⟨max rounds wordsInReach, fun more many => ⟨returned more (le_of_max_le_left many), proverFirstWords (enough.trans ?_)⟩⟩
  exact Nat.count_monotone _ (le_of_max_le_right many)

def zeroStream (_message : Bytes) (_i : Nat) : UInt8 := 0

theorem zeroPoint : ∃ enough, ∀ rounds, enough ≤ rounds →
    hashToPoint zeroStream productionRing [] rounds = some (.ok (firstWords zeroStream 7933 [] 512)) := by
  have all (k : Nat) : Accepted zeroStream 7933 [] k := by
    unfold Accepted wordAt zeroStream
    decide
  refine (hashToPointFirstWords zeroStream productionRing [] (by decide)).1 ?_
  refine le_of_le_of_eq ?_ (countAll all wordsInReach).symm
  decide

/- Every word is accepted, but only after as many bytes as a size can count. -/
def lateStream (_message : Bytes) (i : Nat) : UInt8 := if i < 18446744073709551616 then 255 else 0

theorem lateRefused : (∀ bound, ∃ k, bound ≤ k ∧ Accepted lateStream 7933 [] k) ∧ ∃ enough, ∀ rounds, enough ≤ rounds →
    hashToPoint lateStream productionRing [] rounds =
      some (.error (.logicError "BLNS7933 hash_to_point: SHAKE256 prefix length overflow")) := by
  refine ⟨fun bound => ⟨bound + 18446744073709551616, by omega, ?_⟩, hashToPointOverflows (by decide) ?_⟩
  · unfold Accepted wordAt lateStream
    rw [if_neg (by omega), if_neg (by omega)]
    decide
  · have early (k : Nat) (inReach : k < wordsInReach) : ¬Accepted lateStream 7933 [] k := by
      unfold wordsInReach at inReach
      unfold Accepted wordAt lateStream
      rw [if_pos (by omega), if_pos (by omega)]
      decide
    exact (countNone early).trans_lt productionRing.positive
end TradeP2P.Blns7933
