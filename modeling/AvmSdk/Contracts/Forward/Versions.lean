import AvmSdk.Contracts.Forward.ContractA
import AvmSdk.Sdk.Input.Signed

/-!
# Accounts across an upgrade

An account of contract A runs the code of its version. An upgrade of a first version selects other
code, and every other call leaves the version. Which code an id selects is a parameter: the contract
only refuses its own id, an empty id and an empty hash.

* `Account`, `Account.Runs`: the accounts and their runs. `Moves`: what a call does to the record.
* `account_told`: the counters of the record tell the history, whatever the versions were.
* `account_closed`: a callback, a probe or an upgrade closes the account for plain forwards.
-/

namespace AvmSdk.Forward

open Wire Sdk Contracts Trace

/-- An account: the version of its code, and its state. -/
structure Account where
  version : Version
  state : Bytes

/-- The versions of the contract that code ids select. Accounts with other code are not followed. -/
abbrev Codes := Bytes32 → Option Version

/-- No code id leads back to the first version. -/
def Codes.Onward (codes : Codes) : Prop := ∀ id, codes id ≠ some .v1

/-- The code id that a call selects. -/
def selected (c : Call) : Option Bytes32 :=
  c.output.codeUpgradeIntent.map CodeUpgradeIntent.targetSelectedCodeId

/-- The call upgrades the account. -/
def Upgraded (c : Call) : Prop := c.output.codeUpgradeIntent.isSome

instance : DecidablePred Upgraded := fun _ => inferInstanceAs (Decidable (_ = true))

/-- How many messages a call sends. -/
def sentCount (c : Call) : ℕ := c.output.outboundIntents.length

section

variable [Target]

/-- An account after its deployment, in a first version. -/
def Account.Starts (owner : Bytes32) (first : Version) (start : MessageInput) (a : Account) : Prop :=
  a.version = first ∧ (contractA owner a.version).Starts start a.state

/-- A call of an account. After an upgrade it runs the code that was selected. -/
def Account.Calls (owner : Bytes32) (codes : Codes) (a : Account) (c : Call) (b : Account) : Prop :=
  (contractA owner a.version).Calls a.state c b.state ∧
    (selected c).elim (some a.version) codes = some b.version

/-- The runs of an account, across upgrades. -/
abbrev Account.Runs (owner : Bytes32) (codes : Codes) (first : Version) (start : MessageInput) :
    List Call → Account → Prop :=
  Run (Account.Starts owner first start) (Account.Calls owner codes)

/-! ## Moves -/

/-- The callbacks that an act records. -/
def Act.receipts : Act → ℕ
  | receipt _ => 1
  | _ => 0

/-- A call as a move: an act on the record, or a refusal that changes nothing. -/
inductive Moves (owner : Bytes32) (codes : Codes) (s : Version × Record) (c : Call) :
    Version × Record → Prop
  /-- The message asks for an act that is allowed. -/
  | act {act : Act} {v : Version} (asks : Asks owner c.input s.1 act) (allowed : act.Allowed s.2)
      (output_eq : c.output = act.output s.1 c.input s.2)
      (version_eq : (selected c).elim (some s.1) codes = some v) : Moves owner codes s c (v, act.next s.2)
  /-- The message is refused. -/
  | refused (refused : ¬ c.Accepted)
      (output_eq : c.output = MessageOutput.failure c.output.statusCode) : Moves owner codes s c s

variable {owner : Bytes32} {codes : Codes} {start : MessageInput} {calls pre post : List Call} {a b : Account}
  {c : Call} {s t : Version × Record} {v : Version} {r : Record} {act : Act} {x : MessageInput}

omit [Target] in
/-- The upgrades are those of the acts. -/
theorem upgraded_output_iff (h : c.output = act.output v x r) : Upgraded c ↔ act.upgrades.isSome := by
  unfold Upgraded
  rw [h]
  rfl

omit [Target] in
/-- A call selects code exactly if it upgrades. -/
theorem isSome_selected : (selected c).isSome ↔ Upgraded c := by
  rw [selected, Option.isSome_map]
  rfl

/-- **A call** of an account is a move of its record. -/
theorem Account.Calls.moves (h : Account.Calls owner codes a c b) (hr : a.state = r.encode) :
    ∃ t, Moves owner codes (a.version, r) c t ∧ b = ⟨t.1, t.2.encode⟩ := by
  obtain ⟨⟨-, hstate, hout, hnext⟩, hversion⟩ := h
  have hout : c.output = orFailure (a.version.process owner c.input) := hout
  cases hresult : a.version.process owner c.input with
  | ok out =>
      obtain ⟨r', act, hr', hasks, hallowed, rfl⟩ := Version.process_ok_iff.mp hresult
      have hsame : r' = r := Record.encode_injective (hr'.symm.trans (hstate.trans hr))
      rw [hsame] at hallowed hresult
      rw [hresult, orFailure_ok] at hout
      refine ⟨_, .act hasks hallowed hout hversion, ?_⟩
      rw [hout] at hnext
      cases b
      simp only [Account.mk.injEq, true_and]
      exact hnext
  | error e =>
      have hzero : e ≠ 0 := (Version.raises_process e hresult).ne_zero
      rw [hresult, orFailure_error] at hout
      have hrefused : ¬ c.Accepted := by
        unfold Call.Accepted
        rw [hout]
        exact hzero
      have hnone : selected c = none := by
        rw [selected, hout]
        rfl
      refine ⟨_, .refused hrefused (by rw [hout]; rfl), ?_⟩
      rw [hnone, Option.elim_none, Option.some.injEq] at hversion
      rw [hout] at hnext
      cases b
      simp only [Account.mk.injEq]
      exact ⟨hversion.symm, hnext.trans hr⟩

/-- The runs of the records. -/
abbrev Moved (owner : Bytes32) (codes : Codes) (first : Version) :
    List Call → Version × Record → Prop :=
  Run (· = (first, Record.empty)) (Moves owner codes)

/-- **The runs** of an account are runs of moves, from an empty record. -/
theorem moved_of_runs {first : Version} (hrun : Account.Runs owner codes first start calls a) :
    ∃ s, Moved owner codes first calls s ∧ a = ⟨s.1, s.2.encode⟩ := by
  apply hrun.simulate (R := fun a (s : Version × Record) => a = ⟨s.1, s.2.encode⟩)
  · rintro ⟨version, state⟩ ⟨rfl, -, -, hstate⟩
    refine ⟨_, rfl, ?_⟩
    dsimp only at hstate
    rw [Record.encode_empty, hstate]
    rfl
  · rintro a c b s rfl hcall
    obtain ⟨t, hmove, rfl⟩ := hcall.moves rfl
    exact ⟨t, hmove, rfl⟩

/-! ## What an act does to the books -/

omit [Target] in
/-- Every message that is sent is counted. -/
theorem Act.forwards_next (h : act.Allowed r) :
    (act.next r).forwards.toNat = r.forwards.toNat + (act.sends v x).length := by
  have hone : (1 : U64).toNat = 1 := rfl
  cases act with
  | forward args =>
      have hlt : r.forwards.toNat + (1 : U64).toNat < 2 ^ 64 := h.1
      exact BitVec.toNat_add_of_lt hlt
  | deploy args body =>
      have hlt : r.forwards.toNat + (1 : U64).toNat < 2 ^ 64 := h
      exact BitVec.toNat_add_of_lt hlt
  | probe => rfl
  | paid => rfl
  | upgrade => rfl
  | receipt => rfl

omit [Target] in
/-- Every message carries the same amounts. -/
theorem Act.sum_sends (id : U32) : ((act.sends v x).map fun intent => amountOf id intent.extra).sum =
    (act.sends v x).length * amountOf id forwardExtra := by
  cases act <;> simp [Act.sends, forwarded]

omit [Target] in
/-- Every receipt is counted. -/
theorem Act.callbacks_next (h : act.Allowed r) :
    (act.next r).callbacks.toNat = r.callbacks.toNat + act.receipts := by
  cases act with
  | receipt header =>
      have hzero : r.callbacks = 0 := h.2.1
      rw [hzero]
      rfl
  | forward => rfl
  | deploy => rfl
  | probe => rfl
  | paid => rfl
  | upgrade => rfl

/-- The callbacks are the messages that ask for a receipt. -/
theorem Asks.receipts_eq (h : Asks owner x v act) :
    act.receipts = if x.message.isCallback then 1 else 0 := by
  cases h with
  | receipt hcallback => exact (if_pos hcallback).symm
  | upgrade hplain => exact (if_neg hplain).symm
  | probe hplain => exact (if_neg hplain).symm
  | paid hplain => exact (if_neg hplain).symm
  | forward hother => exact (if_neg hother.plain).symm
  | deploy hother => exact (if_neg hother.plain).symm

/-- Only the first version is upgraded. -/
theorem Asks.version_of_upgrades (h : Asks owner x v act) (hup : act.upgrades.isSome) : v = .v1 := by
  cases h with
  | upgrade => rfl
  | receipt => cases hup
  | probe => cases hup
  | paid => cases hup
  | forward => cases hup
  | deploy => cases hup

/-! ## The history -/

/-- The versions of an account, one after the other. -/
def versions (codes : Codes) (first : Version) (calls : List Call) : List (Option Version) :=
  some first :: (calls.filterMap selected).map codes

omit [Target] in
/-- A call adds the version that it selects. -/
theorem versions_snoc (codes : Codes) (first : Version) (calls : List Call) (c : Call) :
    versions codes first (calls ++ [c]) =
      versions codes first calls ++ (selected c).toList.map codes := by
  rw [versions, filterMap_snoc, List.map_append]
  rfl

/-- **What the record tells** of the calls that led to it. -/
structure Told (codes : Codes) (first : Version) (calls : List Call) (s : Version × Record) : Prop where
  /-- The first counter is the number of messages that were sent, -/
  forwards_eq : s.2.forwards.toNat = (calls.map sentCount).sum
  /-- and each of them carried the same amounts. -/
  sent_eq : ∀ id, (calls.map (Call.sent id)).sum = s.2.forwards.toNat * amountOf id forwardExtra
  /-- The second counter is the number of callbacks that were accepted, -/
  callbacks_eq : s.2.callbacks.toNat = (calls.filter (Call.AcceptedCallback ·)).length
  /-- and there is at most one. -/
  callbacks_le : s.2.callbacks.toNat ≤ 1
  /-- The account runs the version that was selected last, -/
  version_eq : (versions codes first calls).getLast? = some (some s.1)
  /-- and only the first version was ever upgraded. -/
  upgraded : ∀ v ∈ (versions codes first calls).dropLast, v = some .v1

omit [Target] in
/-- All versions were the first one, if the account runs it still. -/
theorem Told.all_first {first : Version} (h : Told codes first calls s) (hs : s.1 = .v1) :
    ∀ v ∈ versions codes first calls, v = some .v1 := by
  intro v hv
  rw [← List.dropLast_append_getLast? _ h.version_eq, List.mem_append, List.mem_singleton] at hv
  rcases hv with hv | rfl
  · exact h.upgraded v hv
  · rw [hs]

/-- **An act** keeps the books. -/
theorem Told.acted {first : Version} (h : Told codes first calls s)
    (hasks : Asks owner c.input s.1 act) (hallowed : act.Allowed s.2)
    (hout : c.output = act.output s.1 c.input s.2)
    (hversion : (selected c).elim (some s.1) codes = some v) :
    Told codes first (calls ++ [c]) (v, act.next s.2) := by
  have hsent : sentCount c = (act.sends s.1 c.input).length := by
    rw [sentCount, hout]
    rfl
  have hforwards : (act.next s.2).forwards.toNat = s.2.forwards.toNat + sentCount c := by
    rw [hsent]
    exact Act.forwards_next hallowed
  have haccepted : c.Accepted := by
    unfold Call.Accepted
    rw [hout]
    rfl
  have hcallback : (if c.AcceptedCallback then 1 else 0) = act.receipts := by
    rw [hasks.receipts_eq]
    exact if_congr (and_iff_right haccepted) rfl rfl
  refine ⟨?_, fun id => ?_, ?_, ?_, ?_, ?_⟩
  · rw [sum_map_snoc, ← h.forwards_eq]
    exact hforwards
  · have hcall : c.sent id = sentCount c * amountOf id forwardExtra := by
      rw [Call.sent, hsent, hout]
      exact Act.sum_sends id
    rw [sum_map_snoc, h.sent_eq, hcall]
    dsimp only
    rw [hforwards, Nat.add_mul]
  · rw [length_filter_snoc, ← h.callbacks_eq, hcallback]
    exact Act.callbacks_next hallowed
  · have hle := h.callbacks_le
    cases act with
    | receipt header => exact le_rfl
    | forward => exact hle
    | deploy => exact hle
    | probe => exact hle
    | paid => exact hle
    | upgrade => exact hle
  · rw [versions_snoc]
    cases hselected : selected c with
    | none =>
        rw [hselected, Option.elim_none] at hversion
        rw [Option.toList_none, List.map_nil, List.append_nil, ← hversion]
        exact h.version_eq
    | some id =>
        rw [hselected, Option.elim_some] at hversion
        rw [Option.toList_some, List.map_singleton, hversion]
        exact List.getLast?_concat
  · rw [versions_snoc]
    cases hselected : selected c with
    | none =>
        rw [Option.toList_none, List.map_nil, List.append_nil]
        exact h.upgraded
    | some id =>
        rw [Option.toList_some, List.map_singleton, List.dropLast_concat]
        have hup : act.upgrades.isSome := by
          rw [← upgraded_output_iff hout, ← isSome_selected, hselected]
          rfl
        exact h.all_first (hasks.version_of_upgrades hup)

omit [Target] in
/-- A refusal keeps the books. -/
theorem Told.refused {first : Version} (h : Told codes first calls s) (hrefused : ¬ c.Accepted)
    (hout : c.output = MessageOutput.failure c.output.statusCode) :
    Told codes first (calls ++ [c]) s := by
  have hsent : sentCount c = 0 := by
    rw [sentCount, hout]
    rfl
  have hcallback : ¬ c.AcceptedCallback := fun hc => hrefused hc.1
  have hversions : versions codes first (calls ++ [c]) = versions codes first calls := by
    have hnone : selected c = none := by
      rw [selected, hout]
      rfl
    rw [versions_snoc, hnone]
    exact List.append_nil _
  refine ⟨?_, fun id => ?_, ?_, h.callbacks_le, hversions ▸ h.version_eq, hversions ▸ h.upgraded⟩
  · rw [sum_map_snoc, hsent, Nat.add_zero, h.forwards_eq]
  · have hzero : c.sent id = 0 := by
      rw [Call.sent, hout]
      rfl
    rw [sum_map_snoc, hzero, Nat.add_zero, h.sent_eq]
  · rw [length_filter_snoc, if_neg hcallback, Nat.add_zero, h.callbacks_eq]

/-- The record of a run tells its history. -/
theorem told_of_moved {first : Version} (hrun : Moved owner codes first calls s) :
    Told codes first calls s := by
  apply hrun.invariant (I := Told codes first)
  · rintro s rfl
    exact ⟨rfl, fun id => (Nat.zero_mul _).symm, rfl, Nat.zero_le 1, rfl, List.forall_mem_nil _⟩
  · intro es s c t _ htold hmove
    cases hmove with
    | act hasks hallowed hout hversion => exact htold.acted hasks hallowed hout hversion
    | refused hrefused hout => exact htold.refused hrefused hout

omit [Target] in
/-- Two upgrades need a code id that leads back to the first version. -/
theorem Told.upgraded_once {first : Version} (h : Told codes first calls s) (hcodes : codes.Onward) :
    (calls.filterMap selected).length ≤ 1 := by
  have hupgraded := h.upgraded
  unfold versions at hupgraded
  generalize calls.filterMap selected = ids at hupgraded ⊢
  match ids with
  | [] => exact Nat.zero_le 1
  | [_] => exact le_rfl
  | id :: _ :: _ => exact absurd (hupgraded (codes id) (by simp)) (hcodes id)

/-- **An account tells its history**: in either version and across upgrades, its state is a record
that counts what was sent and what came back. If no code id leads back to the first version, there is
at most one upgrade. -/
theorem account_told {first : Version} (hrun : Account.Runs owner codes first start calls a) :
    ∃ r : Record, a.state = r.encode ∧ Told codes first calls (a.version, r) ∧
      (codes.Onward → (calls.filterMap selected).length ≤ 1) := by
  obtain ⟨⟨v, r⟩, hmoved, rfl⟩ := moved_of_runs hrun
  have htold := told_of_moved hmoved
  exact ⟨r, rfl, htold, htold.upgraded_once⟩

/-! ## Closed accounts -/

/-- The call closes the account: it is a callback, an upgrade, or a probe of somebody outside. -/
def Closes (c : Call) : Prop :=
  c.AcceptedCallback ∨ Upgraded c ∨
    c.AcceptedMethod versionMethodId ∧ ∃ key, c.input.caller = .external key

/-- What a closed account still accepts: no callback, and nothing that asks for one; it sends nothing
but deployments. -/
structure Closed (c : Call) : Prop where
  not_callback : ¬ c.AcceptedCallback
  callbacks : c.output.callbackIntents = []
  deployments : ∀ intent ∈ c.output.outboundIntents, deployMagic <+: intent.body

omit [Target] in
/-- The mark of a version is not zero. -/
theorem not_blank_marked (r : Record) (v : Version) : ¬ (r.marked v.marker).Blank := by
  intro hblank
  have htail := congrArg Subtype.val hblank.2
  have hlen : 0 < r.tail.val.length := by
    rw [r.tail.property]
    decide
  have hfirst : (r.tail.val.set 0 v.marker)[0]? = some v.marker := List.getElem?_set_self hlen
  have hzero : (zeros 56).val[0]? = some 0 := rfl
  have hmark : v.marker ≠ 0 := by cases v <;> decide
  rw [Record.marked] at htail
  dsimp only at htail
  rw [htail, hzero, Option.some.injEq] at hfirst
  exact hmark hfirst.symm

omit [Target] in
/-- A migrated record is not blank. -/
theorem not_blank_migrated (r : Record) : ¬ { r with tail := migratedTail r.tail }.Blank := by
  intro hblank
  have hfirst : (migratedTail r.tail).val[0]? = some 0x56 := rfl
  have htail : migratedTail r.tail = zeros 56 := hblank.2
  rw [htail] at hfirst
  exact absurd hfirst (by decide)

omit [Target] in
/-- **What is not blank** stays so. -/
theorem Act.not_blank_next (hallowed : act.Allowed r) (h : ¬ r.Blank) : ¬ (act.next r).Blank := by
  cases act with
  | forward => exact absurd hallowed.2 h
  | deploy => exact h
  | probe version => exact not_blank_marked r version
  | paid => exact h
  | upgrade => exact not_blank_migrated r
  | receipt => exact absurd hallowed.2 h

/-- A call that closes the account leaves a record that is not blank. -/
theorem Moves.not_blank_of_closes (h : Moves owner codes s c t) (hc : Closes c) : ¬ t.2.Blank := by
  cases h with
  | refused hrefused hout =>
      exfalso
      rcases hc with hc | hup | hc
      · exact hrefused hc.1
      · rw [Upgraded, hout] at hup
        cases hup
      · exact hrefused hc.1.1
  | @act act _ hasks hallowed hout =>
      have hreceipt (header : CallbackHeader) : ¬ ((Act.receipt header).next s.2).Blank := by
        intro hblank
        have hone : (1 : U64) = 0 := hblank.1
        exact absurd hone (by decide)
      rcases hc with hc | hup | ⟨⟨-, hplain, hmethod⟩, key, hcaller⟩
      · obtain ⟨_, header, rfl, -⟩ := (asks_callback_iff hc.2).mp hasks
        exact hreceipt header
      · rw [upgraded_output_iff hout] at hup
        cases act with
        | upgrade => exact not_blank_migrated s.2
        | receipt => cases hup
        | probe => cases hup
        | paid => cases hup
        | forward => cases hup
        | deploy => cases hup
      · obtain ⟨-, ⟨-, rfl⟩ | ⟨-, ⟨source, hno⟩, -⟩⟩ := (asks_probe_iff hplain hmethod).mp hasks
        · exact not_blank_marked s.2 _
        · cases hcaller.symm.trans hno

/-- What a record that is not blank accepts. -/
theorem Moves.closed (h : Moves owner codes s c t) (hs : ¬ s.2.Blank) (hc : c.Accepted) : Closed c := by
  obtain ⟨version, r⟩ := s
  cases h with
  | refused hrefused => exact absurd hc hrefused
  | @act act _ hasks hallowed hout =>
      have hrequests : c.output.callbackIntents = act.requests := by
        rw [hout]
        rfl
      have hsends : c.output.outboundIntents = act.sends version c.input := by
        rw [hout]
        rfl
      refine ⟨fun hno => ?_, ?_, ?_⟩
      · obtain ⟨_, header, rfl, -⟩ := (asks_callback_iff hno.2).mp hasks
        exact hs hallowed.2
      · rw [hrequests]
        cases act with
        | forward => exact absurd hallowed.2 hs
        | _ => rfl
      · rw [hsends]
        cases hasks with
        | forward => exact absurd hallowed.2 hs
        | deploy _ _ hmagic => exact List.forall_mem_singleton.mpr hmagic
        | receipt => exact List.forall_mem_nil _
        | upgrade => exact List.forall_mem_nil _
        | probe => exact List.forall_mem_nil _
        | paid => exact List.forall_mem_nil _

/-- What is not blank is not blank after any call. -/
theorem Moves.not_blank (h : Moves owner codes s c t) (hs : ¬ s.2.Blank) : ¬ t.2.Blank := by
  cases h with
  | act _ hallowed => exact Act.not_blank_next hallowed hs
  | refused => exact hs

/-- After a call that closes the account, only what a closed account accepts is accepted. -/
theorem closed_of_moved {first : Version} (hrun : Moved owner codes first (pre ++ c :: post) s)
    (hc : Closes c) : ∀ d ∈ post, d.Accepted → Closed d := by
  intro d hd haccepted
  obtain ⟨s, t, u, v, -, hst, hkept, -, huv⟩ := hrun.between
    (R := fun s t : Version × Record => ¬ s.2.Blank → ¬ t.2.Blank) (fun _ h => h)
    (fun _ _ _ hst htu h => htu (hst h)) hd (fun _ _ _ _ _ hmove h => hmove.not_blank h)
  exact huv.closed (hkept (hst.not_blank_of_closes hc)) haccepted

/-- **Closed accounts.** Once a callback, an upgrade or a probe was accepted, the account never
forwards a plain message and never accepts a callback again, in either version. A callback is
accepted after exactly one message was sent, when nothing has closed the account before, and it
leaves its hash. -/
theorem account_closed {first : Version}
    (hrun : Account.Runs owner codes first start (pre ++ c :: post) a) (hc : Closes c) :
    (∀ d ∈ post, d.Accepted → Closed d) ∧
      (c.AcceptedCallback → (pre.map sentCount).sum = 1 ∧ (∀ d ∈ pre, ¬ Closes d) ∧
        ∃ header ∈ c.input.message.callbackHeader,
          c.after = (Record.mk 1 1 (Record.receiptTail 0 header.causeMsgHash)).encode) := by
  obtain ⟨s, hmoved, -⟩ := moved_of_runs hrun
  refine ⟨closed_of_moved hmoved hc, fun hcallback => ?_⟩
  obtain ⟨u, w, hpre, hmove⟩ := hmoved.before
  cases hmove with
  | refused hrefused => exact absurd hcallback.1 hrefused
  | @act act _ hasks hallowed hout =>
      obtain ⟨message, header, rfl, hconfirms⟩ := (asks_callback_iff hcallback.2).mp hasks
      have hone : u.2.forwards = 1 := hallowed.1
      refine ⟨?_, fun d hd hcloses => ?_, header, ?_, ?_⟩
      · rw [← (told_of_moved hpre).forwards_eq, hone]
        rfl
      · obtain ⟨pre', mid, rfl⟩ := List.append_of_mem hd
        rw [List.append_assoc, List.cons_append] at hmoved
        exact (closed_of_moved hmoved hcloses c (by simp) hcallback.1).not_callback hcallback
      · rw [hconfirms.message_eq]
        exact hconfirms.header
      · rw [Call.after, hout]
        show (Record.mk u.2.forwards 1
          (Record.receiptTail header.statusCode header.causeMsgHash)).encode = _
        rw [hone, hconfirms.status_eq]

/-- A message that asks for an act which the record allows. -/
theorem calls_of_asks (hwf : x.WellFormed) (hstate : x.state = r.encode) (hasks : Asks owner x v act)
    (hallowed : act.Allowed r) {v' : Version}
    (hversion : (act.upgrades.map CodeUpgradeIntent.targetSelectedCodeId).elim (some v) codes = some v') :
    Account.Calls owner codes ⟨v, r.encode⟩ ⟨x, act.output v x r⟩ ⟨v', (act.next r).encode⟩ := by
  have hprocess : (contractA owner v).processMessage x = act.output v x r := by
    unfold contractA
    dsimp only
    rw [Version.process_ok_iff.mpr ⟨r, act, hstate, hasks, hallowed, rfl⟩, orFailure_ok]
  exact ⟨⟨hwf, hstate, hprocess.symm, rfl⟩, hversion⟩

end

/-! ## An account that is upgraded -/

section

local instance : Target := Target.wasm32

/-- The account. -/
def sampleSender : AccountAddress := sampleAddress 9

/-- A message to the account, signed by a key. -/
def sampleCall (key : Bytes32) (deploys : Bool) (r : Bytes) (methodId : U64) (body : Bytes) :
    MessageInput :=
  signedInput ⟨0, 0, 0, zeros 32⟩ (.ofEntries []) r
    { pubkey := key
      destination := sampleSender
      deploys := deploys
      methodId := methodId
      extra := .ofEntries []
      body := body }

/-- A forward that asks for a callback. -/
def sampleArgs : ForwardArgs := ⟨sampleAddress 5, 7, 8⟩

/-- The record after the forward. -/
def sampleForwarded : Record := ⟨1, 0, zeros 56⟩

/-- The callback of the forward. -/
def sampleHeader : CallbackHeader := ⟨(sampleAddress 3).dappId, sampleSender, 0⟩

/-- The callback that answers it. -/
def sampleCallback : InternalMessage :=
  InternalMessage.sent
    { flags := internalFlagCallback
      methodId := 8
      fuelFeeShells := 1
      createdLt := 2
      createdAt := 0
      source := sampleArgs.destination
      destination := sampleSender
      callback := some sampleHeader
      callbackHandlerMethodId := none
      eventReads := none
      extra := .ofEntries []
      body := callbackBody
      canonicalBytes := [] }

/-- The call that it makes. -/
def sampleReceipt : MessageInput :=
  { internalInput ⟨0, 0, 0, zeros 32⟩ (.ofEntries []) sampleForwarded.encode sampleCallback with
    internalEventResults := toLe (0 : U32) }

/-- The record after the callback. -/
def sampleReceived : Record := ⟨1, 1, Record.receiptTail 0 sampleHeader.causeMsgHash⟩

/-- The upgrade to other code. -/
def sampleIntent : CodeUpgradeIntent := ⟨(sampleAddress 4).dappId, (sampleAddress 6).dappId⟩

/-- The code table: the upgrade selects the second version. -/
def sampleCodes : Codes := fun id => if id = sampleIntent.targetSelectedCodeId then some .v2 else none

/-- The messages that the account gets. -/
def sampleForwardInput : MessageInput :=
  sampleCall (sampleAddress 1).dappId false Record.empty.encode 3 sampleArgs.toBytes

/-- The call that asks for an upgrade. -/
def sampleUpgradeInput : MessageInput :=
  sampleCall fixturePackageOwnerPubkey false sampleReceived.encode codeUpgradeMethodId
    (upgradeBody sampleIntent)

/-- The calls of the account: a forward, -/
def sampleFirst : Call :=
  ⟨sampleForwardInput, (Act.forward sampleArgs).output .v1 sampleForwardInput .empty⟩

/-- its callback, -/
def sampleSecond : Call :=
  ⟨sampleReceipt, (Act.receipt sampleHeader).output .v1 sampleReceipt sampleForwarded⟩

/-- and an upgrade. -/
def sampleThird : Call :=
  ⟨sampleUpgradeInput, (Act.upgrade sampleIntent).output .v1 sampleUpgradeInput sampleReceived⟩

/-- The account in the end. -/
def sampleUpgraded : Account := ⟨.v2, ((Act.upgrade sampleIntent).next sampleReceived).encode⟩

/-- The sample calls are well formed. -/
theorem sampleCall_wellFormed {key : Bytes32} {deploys : Bool} {r : Bytes} {methodId : U64}
    {body : Bytes} (hkey : key ≠ zeros 32) (hbody : body.length < 2 ^ 31) (hr : r.length < 2 ^ 32) :
    (sampleCall key deploys r methodId body).WellFormed := by
  have hsender : ¬ isZeroAddress sampleSender := by decide
  exact signedInput_wellFormed ⟨hkey, hsender, CurrencyAmounts.wellFormed_ofEntries_nil, hbody⟩
    CurrencyAmounts.wellFormed_ofEntries_nil hr

/-- The account starts from a deployment. -/
theorem sampleStart : Account.Starts fixturePackageOwnerPubkey .v1
    (sampleCall (sampleAddress 1).dappId true [] 0 []) ⟨.v1, Record.empty.encode⟩ := by
  have hkey : (sampleAddress 1).dappId ≠ zeros 32 := by decide
  refine ⟨rfl, sampleCall_wellFormed hkey (Nat.two_pow_pos 31) (Nat.two_pow_pos 32), rfl, ?_⟩
  exact Record.encode_empty

/-- A record fits in 32 bits. -/
theorem length_encode_lt (r : Record) : r.encode.length < 2 ^ 32 := by
  rw [r.length_encode]
  decide

/-- The forward is a call, -/
theorem sampleFirst_calls : Account.Calls fixturePackageOwnerPubkey sampleCodes ⟨.v1, Record.empty.encode⟩
    sampleFirst ⟨.v1, sampleForwarded.encode⟩ := by
  have hkey : (sampleAddress 1).dappId ≠ zeros 32 := by decide
  have hargs : sampleArgs.toBytes.length < 2 ^ 31 := by
    rw [ForwardArgs.length_toBytes]
    decide
  have hasks : Asks fixturePackageOwnerPubkey sampleForwardInput .v1 (.forward sampleArgs) :=
    .forward ⟨fun hno => hno, by decide, by decide, _, rfl⟩ rfl nofun
  exact calls_of_asks (sampleCall_wellFormed hkey hargs (length_encode_lt _)) rfl hasks
    ⟨by decide, rfl, rfl⟩ rfl

/-- so is the receipt, -/
theorem sampleSecond_calls : Account.Calls fixturePackageOwnerPubkey sampleCodes ⟨.v1, sampleForwarded.encode⟩
    sampleSecond ⟨.v1, sampleReceived.encode⟩ := by
  have hcallback : sampleReceipt.message.isCallback := by decide
  have hwf : sampleReceipt.WellFormed := (exists_frame (by decide +kernel) (by decide +kernel)).1
  have hasks : Asks fixturePackageOwnerPubkey sampleReceipt .v1 (.receipt sampleHeader) :=
    .receipt hcallback ⟨rfl, ⟨_, rfl⟩, rfl, by decide, rfl, rfl, rfl, rfl⟩
  exact calls_of_asks hwf rfl hasks ⟨rfl, rfl, rfl⟩ rfl

/-- so is the upgrade, -/
theorem sampleThird_calls : Account.Calls fixturePackageOwnerPubkey sampleCodes ⟨.v1, sampleReceived.encode⟩
    sampleThird sampleUpgraded := by
  have hbody : (upgradeBody sampleIntent).length < 2 ^ 31 := by
    rw [length_upgradeBody]
    decide
  have hasks : Asks fixturePackageOwnerPubkey sampleUpgradeInput .v1 (.upgrade sampleIntent) :=
    .upgrade (fun hno => hno) rfl ⟨rfl, rfl, by decide, by decide, by decide⟩
  have hcode : sampleCodes sampleIntent.targetSelectedCodeId = some .v2 := if_pos rfl
  exact calls_of_asks (sampleCall_wellFormed (by decide) hbody (length_encode_lt _)) rfl hasks trivial
    hcode

/-- and together they are a run. -/
theorem sampleRun : Account.Runs fixturePackageOwnerPubkey sampleCodes .v1
    (sampleCall (sampleAddress 1).dappId true [] 0 []) [sampleFirst, sampleSecond, sampleThird]
    sampleUpgraded :=
  (((Run.start sampleStart).snoc sampleFirst_calls).snoc sampleSecond_calls).snoc sampleThird_calls

end

/-- The record of the upgraded account, and its one upgrade. -/
theorem account_told_sample :
    letI := Target.wasm32
    ∃ r : Record, sampleUpgraded.state = r.encode ∧
      Told sampleCodes .v1 [sampleFirst, sampleSecond, sampleThird] (sampleUpgraded.version, r) ∧
      ([sampleFirst, sampleSecond, sampleThird].filterMap selected).length ≤ 1 := by
  let _ := Target.wasm32
  have hcodes : sampleCodes.Onward := by
    intro id
    unfold sampleCodes
    split_ifs
    · exact nofun
    · exact nofun
  obtain ⟨r, hstate, htold, honce⟩ := account_told sampleRun
  exact ⟨r, hstate, htold, honce hcodes⟩

/-- The callback closes the account. -/
theorem account_closed_sample :
    letI := Target.wasm32
    (∀ d ∈ [sampleThird], d.Accepted → Closed d) ∧
      (sampleSecond.AcceptedCallback → ([sampleFirst].map sentCount).sum = 1 ∧
        (∀ d ∈ [sampleFirst], ¬ Closes d) ∧
          ∃ header ∈ sampleSecond.input.message.callbackHeader, sampleSecond.after =
            (Record.mk 1 1 (Record.receiptTail 0 header.causeMsgHash)).encode) := by
  let _ := Target.wasm32
  have hrun : Account.Runs fixturePackageOwnerPubkey sampleCodes .v1 _ ([sampleFirst] ++ sampleSecond :: [sampleThird])
      sampleUpgraded := sampleRun
  exact account_closed hrun (.inl ⟨rfl, by decide⟩)

end AvmSdk.Forward
