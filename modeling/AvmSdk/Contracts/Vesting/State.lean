import AvmSdk.Contracts.Vesting.Config

/-!
# The state of a vesting contract

What was claimed and refunded from every stream, its two lanes, and whether it was cancelled.

`State.cap`, `State.due`, `State.totals`, `State.held`, `State.validate`, `State.encode` and
`State.decode`, as the code computes them.
-/

namespace AvmSdk.Vesting

open Wire Sdk Contracts Shares

/-- Source: `STATE_BYTES` -/
abbrev stateBytes : ℕ := 3272

/-- Source: `STATE_BASE` -/
abbrev stateBase : ℕ := 1672

/-- Source: `Lane` -/
structure Lane where
  pending : U128
  nonce : U64
  afterLt : U64
  lastLt : U64
  lastHash : Bytes32
deriving DecidableEq

/-- Source: `Lane::default` -/
def Lane.default : Lane := ⟨0, 0, 0, 0, zeros 32⟩

/-- Source: `Progress` -/
structure Progress where
  cancelled : Bool
  cutoff : U32
  cap : U128
  claimed : U128
  refunded : U128
  lanes : Fin 2 → Lane
deriving DecidableEq

/-- Source: `Progress::default` -/
def Progress.default : Progress := ⟨false, 0, 0, 0, 0, fun _ => Lane.default⟩

/-- Source: `State` -/
structure State where
  config : Config
  funded : Bool
  lastTime : U32
  nonce : U64
  progress : Fin maxStreams → Progress

namespace State

/-- Source: `State::new` -/
def new (config : Config) (now : U32) : State where
  config := config
  funded := false
  lastTime := now
  nonce := 0
  progress := fun _ => Progress.default

/-- Source: `State::cap` -/
def cap (self : State) (i : Fin maxStreams) (now : U32) : ResultCode U128 :=
  if (self.progress i).cancelled then .ok (self.progress i).cap
  else (self.config.streams i).earned (wordMax now self.lastTime)

/-- What a lane can carry in all, and what it has carried.
Source: `State::due`, `let (limit, paid)` -/
def limit (self : State) (i : Fin maxStreams) (kind : Fin 2) (cap : U128) :
    ResultCode (U128 × U128) :=
  let p := self.progress i
  if kind = 0 then .ok (cap, p.claimed)
  else do
    failIf (p.cancelled = false) ePhase
    let rest ← okOr (wordCheckedSub (self.config.streams i).total cap) eState
    pure (rest, p.refunded)

/-- Source: `State::due` -/
def due (self : State) (i : Fin maxStreams) (kind : Fin 2) (now : U32) : ResultCode U128 :=
  if self.funded = false then .ok 0
  else do
    let cap ← self.cap i now
    let (limit, paid) ← self.limit i kind cap
    okOr ((wordCheckedSub limit paid).bind fun v =>
      wordCheckedSub v ((self.progress i).lanes kind).pending) eState

/-- The sums so far with one more stream. Source: `State::totals`, `|(a, b, c), p|` -/
def addProgress (self : State) (sums : U128 × U128 × U128) (i : Fin maxStreams) :
    ResultCode (U128 × U128 × U128) := do
  let p := self.progress i
  let a ← okOr (wordCheckedAdd sums.1 p.claimed) eState
  let b ← okOr (wordCheckedAdd sums.2.1 p.refunded) eState
  let c ← okOr ((wordCheckedAdd sums.2.2 (p.lanes 0).pending).bind
    (wordCheckedAdd · (p.lanes 1).pending)) eState
  pure (a, b, c)

/-- Source: `State::totals` -/
def totals (self : State) : ResultCode (U128 × U128 × U128) :=
  (firstIndices maxStreams self.config.count.toNat).foldlM self.addProgress
    ((0 : U128), (0 : U128), (0 : U128))

/-- Source: `State::held` -/
def held (self : State) : ResultCode U128 :=
  if self.funded = false then .ok 0
  else do
    let (a, b, c) ← self.totals
    let total ← self.config.total
    okOr ((wordCheckedSub total a).bind fun v => (wordCheckedSub v b).bind fun v =>
      wordCheckedSub v c) eState

/-- The checks of a cancelled stream. Source: `State::validate`, `if p.cancelled` -/
def checkCancelled (self : State) (i : Fin maxStreams) : ResultCode Unit := do
  let p := self.progress i
  let cfg := self.config.streams i
  failIf (cfg.revocable = false ∨ self.lastTime < p.cutoff ∨ cfg.endTime ≤ p.cutoff) eState
  let earned ← (cfg.earned p.cutoff).mapError fun _ => eState
  failIf (p.cap ≠ earned) eState

/-- The checks of a stream that was not cancelled.
Source: `State::validate`, `else if p.cutoff != 0 || ..` -/
def checkRunning (self : State) (i : Fin maxStreams) : ResultCode Unit :=
  let p := self.progress i
  failIf (p.cutoff ≠ 0 ∨ p.cap ≠ 0 ∨ p.refunded ≠ 0 ∨ p.lanes 1 ≠ Lane.default) eState

/-- Source: `State::validate`, `if p.cancelled { .. } else if ..` -/
def checkCancellation (self : State) (i : Fin maxStreams) : ResultCode Unit :=
  if (self.progress i).cancelled then self.checkCancelled i else self.checkRunning i

/-- The checks of a lane. Source: `State::validate`, `for lane in p.lanes` -/
def checkLane (self : State) (lane : Lane) : ResultCode Unit := do
  failIf (lane.lastLt = 0 ∧ lane.lastHash ≠ zeros 32 ∨ 0 < lane.lastLt ∧ lane.lastHash = zeros 32)
    eState
  if lane.pending = 0 then failIf (lane.nonce ≠ 0 ∨ lane.afterLt ≠ 0) eState
  else failIf (lane.nonce = 0 ∨ self.nonce < lane.nonce ∨ lane.afterLt < lane.lastLt) eState

/-- The checks of what is due. Source: `State::validate`, `if self.funded` -/
def checkDue (self : State) (i : Fin maxStreams) : ResultCode Unit :=
  if self.funded then do
    let _ ← self.due i 0 self.lastTime
    if (self.progress i).cancelled then do
      let _ ← self.due i 1 self.lastTime
      pure ()
    else pure ()
  else pure ()

/-- The checks of one stream.
Source: `State::validate`, `for (i, p) in self.progress[..n].iter().enumerate()` -/
def checkStream (self : State) (i : Fin maxStreams) : ResultCode Unit := do
  self.checkCancellation i
  self.checkLane ((self.progress i).lanes 0)
  self.checkLane ((self.progress i).lanes 1)
  self.checkDue i

/-- Source: `State::validate` -/
def validate (self : State) : ResultCode Unit := do
  self.config.validate.mapError fun _ => eState
  failIf (self.funded = false ∧ (self.nonce ≠ 0 ∨ ∃ i, self.progress i ≠ Progress.default)) eState
  let n := self.config.count.toNat
  (firstIndices maxStreams n).forM self.checkStream
  failIf (∃ i : Fin maxStreams, n ≤ i.val ∧ self.progress i ≠ Progress.default) eState
  let _ ← self.held
  pure ()

/-- Source: `State::encode`, `for (kind, l) in p.lanes.iter().enumerate()` -/
def encodeLane (l : Lane) : Bytes :=
  [toLe l.pending, toLe l.nonce, toLe l.afterLt, toLe l.lastLt, l.lastHash.val].flatten

/-- Source: `State::encode`, `for (i, p) in self.progress.iter().enumerate()` -/
def encodeProgress (p : Progress) : Bytes :=
  [[if p.cancelled then 1 else 0], (zeros 3).val, toLe p.cutoff, toLe p.cap, toLe p.claimed,
    toLe p.refunded, encodeLane (p.lanes 0), encodeLane (p.lanes 1)].flatten

/-- The fields one after the other, as they stand in the buffer of zeros that the source fills.
Source: `State::encode` -/
def encode (self : State) : Bytes :=
  [self.config.encode, [if self.funded then 1 else 0], (zeros 3).val, toLe self.lastTime,
    toLe self.nonce, (List.ofFn fun i => encodeProgress (self.progress i)).flatten].flatten

/-- Source: `State::decode`, `for (kind, l) in p.lanes.iter_mut().enumerate()` -/
def decodeLane [Target] (b : Bytes) (o : ℕ) (kind : Fin 2) : ResultCode Lane := do
  let a := o + 56 + kind.val * 72
  let pending ← wordAt eArgs 128 b a
  let nonce ← wordAt eArgs 64 b (a + 16)
  let afterLt ← wordAt eArgs 64 b (a + 24)
  let lastLt ← wordAt eArgs 64 b (a + 32)
  let lastHash ← arrayAt eArgs 32 b (a + 40)
  pure ⟨pending, nonce, afterLt, lastLt, lastHash⟩

/-- Source: `State::decode`, `for (i, p) in s.progress.iter_mut().enumerate()` -/
def decodeProgress [Target] (b : Bytes) (i : Fin maxStreams) : ResultCode Progress := do
  let o := stateBase + i.val * rowBytes
  failIf (1 < b.getD o 0 ∨ b.extract (o + 1) (o + 4) ≠ (zeros 3).val) eState
  let cutoff ← wordAt eArgs 32 b (o + 4)
  let cap ← wordAt eArgs 128 b (o + 8)
  let claimed ← wordAt eArgs 128 b (o + 24)
  let refunded ← wordAt eArgs 128 b (o + 40)
  let lanes ← tabulateM 2 (decodeLane b o)
  pure ⟨b.getD o 0 = 1, cutoff, cap, claimed, refunded, lanes⟩

/-- Source: `State::decode` -/
def decode [Target] (b : Bytes) : ResultCode State := do
  failIf (b.length ≠ stateBytes ∨ 1 < b.getD 1656 0 ∨ b.extract 1657 1660 ≠ (zeros 3).val) eState
  let config ← (Config.decode (b.extract 0 configBytes)).mapError fun _ => eState
  let lastTime ← wordAt eArgs 32 b 1660
  let nonce ← wordAt eArgs 64 b 1664
  let progress ← tabulateM maxStreams (decodeProgress b)
  let s : State := ⟨config, b.getD 1656 0 = 1, lastTime, nonce, progress⟩
  s.validate
  pure s

end State

end AvmSdk.Vesting
