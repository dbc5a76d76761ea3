import AvmSdk.Sdk.Runtime.Arena

/-!
# The guest arena is a bounded stack allocator

The arena, over any sequence of calls from a new one, against the stack allocator of `AvmSdk.Alloc`.

* `simulates_step`: call by call, the arena answers as the stack allocator does on its live blocks.
* `GuestArena.StackLike`: what the arena does in a state, one named field a property.
* `guestArena_refines_stack`: the simulation over every sequence of calls from a new arena, and the
  properties of the state it leads to.
-/

namespace AvmSdk.Sdk

open Wire Alloc

/-- A call of the arena. -/
inductive ArenaCall
  | allocate (len : U32)
  | free (ptr len : U32)

/-- The reply to a call. -/
inductive ArenaReply
  | pointer (ptr : U32)
  | freed (done : Bool)

/-- The same call of the stack allocator. -/
def ArenaCall.toCall : ArenaCall → Call
  | allocate len => .allocate len.toNat
  | free ptr len => .free ⟨ptr.toNat, len.toNat⟩

/-- The same reply of the stack allocator: the pointer 0 stands for no block. -/
def ArenaReply.toReply : ArenaReply → Reply
  | pointer ptr => .address (if ptr = 0 then none else some ptr.toNat)
  | freed done => .freed done

section

variable [Target] {N base : ℕ}

/-- The arena as a machine. -/
def GuestArena.step (base : ℕ) : ArenaCall → GuestArena N → ArenaReply × GuestArena N
  | .allocate len, a =>
      let (ptr, a') := a.allocate base len
      (.pointer ptr, a')
  | .free ptr len, a =>
      let (done, a') := a.free base ptr len
      (.freed done, a')

/-- **One call.** The arena answers as the stack allocator does on the live blocks, and keeps its
invariant. -/
theorem simulates_step (hN : N ≤ 2 ^ 32 - 1) (hbase : 1 ≤ base) (hend : base + N ≤ 2 ^ 32) :
    Simulates (fun (a : GuestArena N) blocks => a.WellStacked base ∧ a.live base = blocks)
      (GuestArena.step base) (Alloc.step (GuestArena.region N base)) ArenaCall.toCall
      ArenaReply.toReply := by
  rintro call a _ ⟨ha, rfl⟩
  cases call with
  | allocate len =>
      have hiff := GuestArena.allocate_ne_zero_iff ha hN hbase hend len
      show ArenaReply.toReply (.pointer (a.allocate base len).1) =
          .address (Alloc.allocate (GuestArena.region N base) len.toNat (a.live base)).1 ∧
        (a.allocate base len).2.WellStacked base ∧ (a.allocate base len).2.live base =
          (Alloc.allocate (GuestArena.region N base) len.toNat (a.live base)).2
      rcases GuestArena.allocate_cases ha len with hzero | ⟨hne, hdone⟩
      · rw [allocate_of_no_room fun hroom => hiff.mpr hroom (by rw [hzero]), hzero]
        exact ⟨rfl, ha, rfl⟩
      · rw [allocate_of_room (hiff.mp hne)]
        refine ⟨?_, hdone.wellStacked, ?_⟩
        · rw [ArenaReply.toReply, if_neg hne, hdone.address_eq]
          rfl
        · rw [hdone.live_eq, hdone.address_eq]
          rfl
  | free ptr len =>
      show ArenaReply.toReply (.freed (a.free base ptr len).1) =
          .freed (Alloc.free ⟨ptr.toNat, len.toNat⟩ (a.live base)).1 ∧
        (a.free base ptr len).2.WellStacked base ∧ (a.free base ptr len).2.live base =
          (Alloc.free ⟨ptr.toNat, len.toNat⟩ (a.live base)).2
      rcases GuestArena.free_cases ha ptr len with ⟨hfalse, hhead⟩ | ⟨htrue, hlive, -, hstacked⟩
      · rw [free_of_not_head hhead, hfalse]
        exact ⟨rfl, ha, rfl⟩
      · rw [hlive, free_head, htrue]
        exact ⟨rfl, hstacked, rfl⟩

/-- What the arena does in a state, in terms of its live blocks. -/
structure GuestArena.StackLike (base : ℕ) (a : GuestArena N) : Prop where
  slots_le : (a.live base).length ≤ 2
  disjoint : (a.live base).Pairwise Block.Disjoint
  inside : ∀ b ∈ a.live base, base ≤ b.start ∧ b.stop ≤ base + N
  contiguous : Contiguous base (a.live base)
  next_eq_zero : a.live base = [] → a.next = 0
  next_eq_stop : ∀ b, (a.live base).head? = some b → base + a.next.toNat = b.stop
  allocate_iff : ∀ len, (a.allocate base len).1 ≠ 0 ↔
    0 < len.toNat ∧ (a.live base).length < 2 ∧ used (a.live base) + len.toNat ≤ N
  allocate_some : ∀ len, (a.allocate base len).1 ≠ 0 →
    (a.allocate base len).1.toNat = top base (a.live base) ∧
      (a.allocate base len).2.live base = ⟨top base (a.live base), len.toNat⟩ :: a.live base
  allocate_none : ∀ len, (a.allocate base len).1 = 0 → (a.allocate base len).2 = a
  free_iff : ∀ ptr len, (a.free base ptr len).1 = true ↔
    (a.live base).head? = some ⟨ptr.toNat, len.toNat⟩
  free_some : ∀ ptr len, (a.free base ptr len).1 = true →
    (a.free base ptr len).2.live base = (a.live base).tail
  free_none : ∀ ptr len, (a.free base ptr len).1 = false → (a.free base ptr len).2 = a

/-- The invariant makes the arena a bounded stack of blocks. -/
theorem GuestArena.WellStacked.stackLike {a : GuestArena N} (h : a.WellStacked base)
    (hN : N ≤ 2 ^ 32 - 1) (hbase : 1 ≤ base) (hend : base + N ≤ 2 ^ 32) : a.StackLike base := by
  constructor
  case slots_le => exact h.stacked.slots_le
  case disjoint => exact h.stacked.pairwise_disjoint
  case inside => exact fun b hb => h.stacked.inside hb
  case contiguous => exact h.stacked.contiguous
  case next_eq_zero =>
    intro hnil
    have hnext := h.next_eq
    rw [hnil] at hnext
    exact BitVec.eq_of_toNat_eq hnext
  case next_eq_stop =>
    intro b hhead
    obtain ⟨blocks, hlive⟩ := List.head?_eq_some_iff.mp hhead
    rw [← h.top_eq, hlive]
    rfl
  case allocate_iff => exact allocate_ne_zero_iff h hN hbase hend
  case allocate_some =>
    intro len hne
    rcases allocate_cases h len with hzero | ⟨-, hdone⟩
    · rw [hzero] at hne
      exact absurd rfl hne
    · exact ⟨hdone.address_eq, by rw [hdone.live_eq, hdone.address_eq]⟩
  case allocate_none =>
    intro len hzero
    rcases allocate_cases h len with hsame | ⟨hne, -⟩
    · rw [hsame]
    · exact absurd hzero hne
  case free_iff =>
    intro ptr len
    rcases free_cases h ptr len with ⟨hfalse, hhead⟩ | ⟨htrue, hlive, -, -⟩
    · rw [hfalse]
      exact ⟨nofun, fun hsome => absurd hsome hhead⟩
    · rw [htrue, hlive]
      exact ⟨fun _ => rfl, fun _ => rfl⟩
  case free_some =>
    intro ptr len htrue
    rcases free_cases h ptr len with ⟨hfalse, -⟩ | ⟨-, hlive, -, -⟩
    · rw [hfalse] at htrue
      cases htrue
    · rw [hlive, List.tail_cons]
  case free_none =>
    intro ptr len hfalse
    rcases free_cases h ptr len with ⟨hsame, -⟩ | ⟨htrue, -, -, -⟩
    · rw [hsame]
    · rw [hfalse] at htrue
      cases htrue

/-- The arena after a sequence of calls from a new one. -/
def GuestArena.after (N base : ℕ) (calls : List ArenaCall) : GuestArena N :=
  (run (GuestArena.step base) calls (GuestArena.new N)).2

/-- **The guest arena is a bounded stack allocator**: over every sequence of calls from a new arena
it gives the replies of the stack allocator and has its live blocks, and then it is a bounded stack
of blocks. -/
theorem guestArena_refines_stack {N base : ℕ} (hN : N ≤ 2 ^ 32 - 1) (hbase : 1 ≤ base)
    (hend : base + N ≤ 2 ^ 32) (calls : List ArenaCall) :
    ((run (GuestArena.step base) calls (GuestArena.new N)).1.map ArenaReply.toReply,
        (GuestArena.after N base calls).live base) =
      run (Alloc.step (GuestArena.region N base)) (calls.map ArenaCall.toCall) [] ∧
    (GuestArena.after N base calls).StackLike base := by
  obtain ⟨hreplies, hstacked, hlive⟩ := (simulates_step hN hbase hend).run calls
    ⟨GuestArena.wellStacked_new, GuestArena.live_new⟩
  exact ⟨Prod.ext hreplies hlive, hstacked.stackLike hN hbase hend⟩

end

/-- An arena of 16 bytes at address 1, with two blocks of which the upper one has been freed. -/
theorem guestArena_refines_stack_sample :
    letI := Target.wasm32
    let calls : List ArenaCall := [.allocate 8, .allocate 4, .free 9 4]
    ((run (GuestArena.step 1) calls (GuestArena.new 16)).1.map ArenaReply.toReply,
        (GuestArena.after 16 1 calls).live 1) =
      run (Alloc.step (GuestArena.region 16 1)) (calls.map ArenaCall.toCall) [] ∧
    (GuestArena.after 16 1 calls).StackLike 1 := by
  let _ := Target.wasm32
  exact guestArena_refines_stack (by decide) (by decide) (by decide) _

end AvmSdk.Sdk
