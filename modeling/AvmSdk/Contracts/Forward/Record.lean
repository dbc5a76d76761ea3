import AvmSdk.Contracts.Handler

/-!
# The record of the forwarding contract

What the two versions of `contract-a` share: the constants, the arguments of a forward, and the
state of 72 bytes.

* `Record`: a state with its two counters and the tail behind them. Every string of 72 bytes is one
  (`Record.exists_encode`).
* `forwardArgs_ok_iff`: the arguments of a forward are read exactly as they stand there.
* `Record.previousCount_ok_iff`, `Record.blank_iff`: what the checks of the code say of a record.
* `Record.patch_forwards`, `Record.set_encode`, `Record.receipt_written`: what the writes of the
  code make of a record.
-/

namespace AvmSdk.Forward

open Wire Sdk Contracts

/-- Source: `STATE_BYTES` -/
abbrev stateBytes : ℕ := 72

/-- Source: `FORWARD_ARGS_BYTES` -/
abbrev forwardArgsBytes : ℕ := 80

/-- Source: `VALUE_ECC0` -/
def valueEcc0 : U128 := 37

/-- Source: `EXTRA_CURRENCY_ID` -/
def extraCurrencyId : U32 := 7

/-- Source: `EXTRA_CURRENCY_AMOUNT` -/
def extraCurrencyAmount : U128 := 11

/-- Source: `OUTBOUND_BODY` -/
def outboundBody : Bytes := List.replicate 16 0x42

/-- Source: `CALLBACK_BODY` -/
def callbackBody : Bytes := List.replicate 16 0x99

/-- Source: `VERSION_METHOD_ID`, and `PAYOUT_METHOD_ID` of contract-b -/
def versionMethodId : U64 := 0x0dc1fee693a5219c

/-- The errors of contract-a, by what is wrong: the forward, -/
def forwardError : U32 := 1000
/-- the counters, -/
def stateError : U32 := 1001
/-- the callback, -/
def callbackError : U32 := 1002
/-- the version probe, -/
def probeError : U32 := 1003
/-- and the upgrade. -/
def upgradeError : U32 := 1004

/-- The currencies that go with a forward. Source: `extra: vec![..]` -/
def forwardExtra : List CurrencyAmount := [⟨0, valueEcc0⟩, ⟨extraCurrencyId, extraCurrencyAmount⟩]

/-- The arguments of a forward: where it goes, what it calls there, and what takes the callback. -/
structure ForwardArgs where
  destination : AccountAddress
  methodId : U64
  callbackMethodId : U64
deriving DecidableEq

/-- The bytes of the arguments. -/
def ForwardArgs.toBytes (args : ForwardArgs) : Bytes :=
  [args.destination.dappId.val, args.destination.accountId.val, toLe args.methodId,
    toLe args.callbackMethodId].flatten

/-- Source: `process_message`, `destination_dapp_id` to `callback_method_id` -/
def forwardArgs (arguments : Bytes) : Except U32 ForwardArgs := do
  let dappId ← okOr ((getRange arguments 0 32).bind (tryIntoArray 32)) forwardError
  let accountId ← okOr ((getRange arguments 32 64).bind (tryIntoArray 32)) forwardError
  let methodId ← okOr ((getRange arguments 64 72).bind (tryIntoArray 8)) forwardError
  let callbackMethodId ← okOr ((getRange arguments 72 80).bind (tryIntoArray 8)) forwardError
  pure ⟨⟨dappId, accountId⟩, ofLe 64 methodId.val, ofLe 64 callbackMethodId.val⟩

/-- The first word of a state of `n` bytes.
Source: `previous_count`, and `previous_forward_count` of `process_callback` -/
def previousCount (n : ℕ) (e : U32) (state : Bytes) : Except U32 U64 := do
  let part ← okOr (((getRange state 0 8).filter fun _ => decide (state.length = n)).bind
    (tryIntoArray 8)) e
  pure (ofLe 64 part.val)

/-- The message of a forward. Source: `OutboundIntent` in `process_message` -/
def forwarded (args : ForwardArgs) (fuelFeeShells : U128) (body : Bytes) : OutboundIntent :=
  ⟨0, args.destination, fuelFeeShells, forwardExtra, args.methodId, body⟩

/-! ## Arguments -/

/-- The lengths of the arguments of a forward, -/
theorem ForwardArgs.lengths_toBytes (args : ForwardArgs) :
    [args.destination.dappId.val, args.destination.accountId.val, toLe args.methodId,
      toLe args.callbackMethodId].map List.length = [32, 32, 8, 8] := by
  simp [args.destination.dappId.property, args.destination.accountId.property]

/-- and that of them all. -/
@[simp] theorem ForwardArgs.length_toBytes (args : ForwardArgs) :
    args.toBytes.length = forwardArgsBytes :=
  length_flatten_of_lengths args.lengths_toBytes

/-- **The arguments** of a forward are read exactly. -/
theorem forwardArgs_ok_iff {arguments : Bytes} (h : arguments.length = forwardArgsBytes)
    {args : ForwardArgs} : forwardArgs arguments = .ok args ↔ args.toBytes = arguments := by
  have hread (p q n : ℕ) (hpq : p + n = q) (hq : q ≤ 80) (u : BytesN n) :
      (getRange arguments p q).bind (tryIntoArray n) = some u ↔ u.val = arguments.extract p q := by
    rw [Option.bind_eq_some_iff]
    simp only [getRange_eq_some, tryIntoArray_eq_some]
    constructor
    · rintro ⟨part, ⟨-, rfl⟩, hpart⟩
      exact hpart.symm
    · exact fun hu => ⟨_, ⟨⟨by omega, by rw [h]; exact hq⟩, rfl⟩, hu.symm⟩
  rw [ForwardArgs.toBytes, flatten_eq_iff args.lengths_toBytes h]
  simp only [forwardArgs, bind_ok_iff, okOr_ok_iff, pure_ok_iff,
    hread 0 32 32 rfl (by decide), hread 32 64 32 rfl (by decide), hread 64 72 8 rfl (by decide),
    hread 72 80 8 rfl (by decide), splitParts, List.cons.injEq, and_true]
  constructor
  · rintro ⟨dappId, hdapp, accountId, haccount, method, hmethod, callback, hcallback, rfl⟩
    refine ⟨hdapp, haccount, ?_, ?_⟩
    · rw [toLe_ofLe (by rw [method.property]), hmethod]
    · rw [toLe_ofLe (by rw [callback.property]), hcallback]
  · rintro ⟨hdapp, haccount, hmethod, hcallback⟩
    refine ⟨_, hdapp, _, haccount, ⟨toLe args.methodId, length_toLe _⟩, hmethod,
      ⟨toLe args.callbackMethodId, length_toLe _⟩, hcallback, ?_⟩
    dsimp only
    rw [ofLe_toLe (by decide), ofLe_toLe (by decide)]

/-! ## States -/

/-- **The first word** of a state is read, and only of a state of the right length. -/
theorem previousCount_iff {n : ℕ} {e : U32} {b : Bytes} {count : U64} :
    previousCount n e b = .ok count ↔ b.length = n ∧ ∃ rest, b = toLe count ++ rest := by
  simp only [previousCount, bind_ok_iff, okOr_ok_iff, pure_ok_iff, Option.bind_eq_some_iff,
    Option.filter_eq_some_iff, decide_eq_true_eq, tryIntoArray_eq_some]
  constructor
  · rintro ⟨part, ⟨u, ⟨hrange, hlen⟩, rfl⟩, rfl⟩
    obtain ⟨-, htake⟩ := getRange_eq_some.mp hrange
    rw [List.extract_eq_take_drop, List.drop_zero, Nat.sub_zero] at htake
    refine ⟨hlen, b.drop 8, ?_⟩
    rw [toLe_ofLe (by rw [part.property]), ← htake, List.take_append_drop]
  · rintro ⟨hlen, rest, rfl⟩
    have hread := getRange_append [] (toLe count) rest
    rw [List.nil_append, List.length_nil, Nat.zero_add, length_toLe] at hread
    exact ⟨⟨toLe count, length_toLe _⟩, ⟨_, ⟨hread, hlen⟩, rfl⟩, ofLe_toLe (by decide) _⟩

/-- The next count, if it is a word. Source: `previous_count.checked_add(1)` -/
theorem nextCount_iff {n m : U64} : wordCheckedAdd n 1 = some m ↔ n.toNat + 1 < 2 ^ 64 ∧ n + 1 = m := by
  unfold wordCheckedAdd
  split_ifs with h
  · rw [Option.some.injEq]
    exact (and_iff_right h).symm
  · exact iff_of_false nofun fun hno => h hno.1

/-- No byte of a string is set. Source: `iter().any(|byte| *byte != 0)` -/
theorem noneSet_iff {u : Bytes} {n : ℕ} (h : u.length = n) :
    ¬ u.any (fun byte => decide (byte ≠ 0)) = true ↔ u = (zeros n).val := by
  rw [zeros, List.eq_replicate_iff]
  simp only [List.any_eq_true, decide_eq_true_eq, not_exists, not_and, not_not]
  exact ⟨fun hall => ⟨h, hall⟩, fun hall => hall.2⟩

/-! ## Records -/

/-- A state: how many messages were forwarded, how many callbacks came back, and the tail, in which
callbacks, probes and upgrades leave their traces. -/
structure Record where
  forwards : U64
  callbacks : U64
  tail : BytesN 56
deriving DecidableEq

namespace Record

/-- The bytes of a record. -/
def encode (r : Record) : Bytes := toLe r.forwards ++ (toLe r.callbacks ++ r.tail.val)

/-- The record after the deployment. -/
def empty : Record := ⟨0, 0, zeros 56⟩

/-- Nothing but forwards was recorded. -/
def Blank (r : Record) : Prop := r.callbacks = 0 ∧ r.tail = zeros 56

instance : DecidablePred Blank := fun _ => inferInstanceAs (Decidable (_ ∧ _))

variable {r t : Record}

/-- The length of a record. -/
@[simp] theorem length_encode (r : Record) : r.encode.length = stateBytes := by
  simp [encode, r.tail.property]

/-- Distinct records have distinct encodings. -/
theorem encode_injective : Function.Injective encode := by
  intro r t h
  obtain ⟨hforwards, hrest⟩ := List.append_inj h (by rw [length_toLe, length_toLe])
  obtain ⟨hcallbacks, htail⟩ := List.append_inj hrest (by rw [length_toLe, length_toLe])
  cases r
  cases t
  simp only [mk.injEq]
  exact ⟨toLe_inj (by decide) hforwards, toLe_inj (by decide) hcallbacks, Subtype.ext htail⟩

/-- Every state of the right length is a record. -/
theorem exists_encode {b : Bytes} (h : b.length = stateBytes) : ∃ r : Record, r.encode = b := by
  have hfirst : (b.take 8).length = 8 := by rw [List.length_take, h]; rfl
  have hrest : (b.drop 8).length = 64 := by rw [List.length_drop, h]; rfl
  have hsecond : ((b.drop 8).take 8).length = 8 := by rw [List.length_take, hrest]; rfl
  have htail : ((b.drop 8).drop 8).length = 56 := by rw [List.length_drop, hrest]
  refine ⟨⟨ofLe 64 (b.take 8), ofLe 64 ((b.drop 8).take 8), ⟨_, htail⟩⟩, ?_⟩
  unfold encode
  dsimp only
  rw [toLe_ofLe (by rw [hfirst]), toLe_ofLe (by rw [hsecond]), List.take_append_drop,
    List.take_append_drop]

/-- The state of a fresh account. -/
@[simp] theorem encode_empty : empty.encode = (zeros stateBytes).val := by decide

/-! ### Reading -/

/-- The first word of a record is the number of its forwards. -/
theorem previousCount_ok_iff {b : Bytes} {n : U64} :
    previousCount stateBytes stateError b = .ok n ↔ ∃ r : Record, b = r.encode ∧ r.forwards = n := by
  rw [previousCount_iff]
  constructor
  · rintro ⟨hlen, rest, rfl⟩
    obtain ⟨r, hr⟩ := exists_encode hlen
    have hfirst := (List.append_inj hr (by rw [length_toLe, length_toLe])).1
    exact ⟨r, hr.symm, toLe_inj (by decide) hfirst⟩
  · rintro ⟨r, rfl, rfl⟩
    exact ⟨r.length_encode, _, rfl⟩

/-- A record is blank exactly when no byte behind the first word is set.
Source: `input.state[8..].iter().any(|byte| *byte != 0)` -/
theorem blank_iff : ¬ (r.encode.drop 8).any (fun byte => decide (byte ≠ 0)) = true ↔ r.Blank := by
  have hdrop : r.encode.drop 8 = toLe r.callbacks ++ r.tail.val :=
    List.drop_left' (length_toLe r.forwards)
  have hlen : (toLe r.callbacks ++ r.tail.val).length = 64 := by
    rw [List.length_append, length_toLe, r.tail.property]
  have hsplit : (zeros 64).val = toLe (0 : U64) ++ (zeros 56).val := by decide
  rw [hdrop, noneSet_iff hlen, hsplit, Blank, Subtype.ext_iff]
  constructor
  · intro h
    obtain ⟨hcallbacks, htail⟩ := List.append_inj h (by rw [length_toLe, length_toLe])
    exact ⟨toLe_inj (by decide) hcallbacks, htail⟩
  · rintro ⟨hcallbacks, htail⟩
    rw [hcallbacks, htail]

/-- Any byte of a blank state behind the first word is zero, whichever range is looked at. -/
theorem tail_eq_iff : ¬ (r.encode.drop 16).any (fun byte => decide (byte ≠ 0)) = true ↔
    r.tail = zeros 56 := by
  have hdrop : r.encode.drop 16 = r.tail.val := by
    rw [encode, ← List.append_assoc]
    apply List.drop_left'
    rw [List.length_append, length_toLe, length_toLe]
  rw [hdrop, noneSet_iff r.tail.property, Subtype.ext_iff]

/-- The second word of a record. -/
theorem getRange_callbacks : getRange r.encode 8 16 = some (toLe r.callbacks) := by
  have hread := getRange_append (toLe r.forwards) (toLe r.callbacks) r.tail.val
  rw [length_toLe, length_toLe] at hread
  exact hread

/-! ### Writing -/

/-- The first word is overwritten, the rest is kept.
Source: `next_state[..8].copy_from_slice(..)` -/
theorem patch_forwards (r : Record) (n : U64) :
    patch r.encode 0 (toLe n) = { r with forwards := n }.encode := by
  have hpatch : patch ([] ++ (toLe r.forwards ++ (toLe r.callbacks ++ r.tail.val))) 0 (toLe n) =
      [] ++ (toLe n ++ (toLe r.callbacks ++ r.tail.val)) := by
    apply patch_middle rfl
    rw [length_toLe, length_toLe]
  exact hpatch

/-- The first byte of the tail. Source: `next_state[16] = VERSION_MARKER` -/
def marked (r : Record) (marker : U8) : Record :=
  { r with tail := ⟨r.tail.val.set 0 marker, by rw [List.length_set, r.tail.property]⟩ }

/-- Writing the migration marker into the state of a record. -/
theorem set_encode (r : Record) (marker : U8) : r.encode.set 16 marker = (r.marked marker).encode := by
  have hfront : (toLe r.forwards ++ toLe r.callbacks).length = 16 := by
    rw [List.length_append, length_toLe, length_toLe]
  rw [encode, encode, ← List.append_assoc, ← List.append_assoc,
    List.set_append_right _ _ (by rw [hfront]), hfront, Nat.sub_self]
  rfl

/-- The tail after a callback. Source: `process_callback`, `next_state[16..72]` -/
def receiptTail (statusCode : U32) (causeMsgHash : Bytes32) : BytesN 56 :=
  ⟨toLe statusCode ++ (toLe (16 : U32) ++ (callbackBody ++ causeMsgHash.val)), by
    simp only [List.length_append, length_toLe, causeMsgHash.property]
    rfl⟩

/-- **The writes of a callback** to a zeroed state leave a record.
Source: `process_callback`, `next_state` -/
theorem receipt_written (forwards : U64) (callbacks : U64) (statusCode : U32) (hash : Bytes32) :
    patch (patch (patch (patch (patch (patch (zeros stateBytes).val 0 (toLe forwards)) 8
      (toLe callbacks)) 16 (toLe statusCode)) 20 (toLe (BitVec.ofNat 32 callbackBody.length))) 24
        callbackBody) 40 hash.val = (Record.mk forwards callbacks (receiptTail statusCode hash)).encode := by
  have hbody : callbackBody.length = 16 := rfl
  have hdrop : (zeros stateBytes).val.drop 72 = [] := by
    rw [List.drop_eq_nil_iff, (zeros stateBytes).property]
  -- the writes stand one behind the other
  rw [patch_patch (i := 0), patch_patch (i := 0), patch_patch (i := 0), patch_patch (i := 0),
    patch_patch (i := 0)]
  · have hall : 0 + (toLe forwards ++ toLe callbacks ++ toLe statusCode ++
        toLe (BitVec.ofNat 32 callbackBody.length) ++ callbackBody ++ hash.val).length = 72 := by
      simp [hbody, hash.property]
    rw [patch, List.take_zero, List.nil_append, hall, hdrop, List.append_nil]
    simp only [List.append_assoc]
    rfl
  all_goals simp [hbody]

end Record

end AvmSdk.Forward
