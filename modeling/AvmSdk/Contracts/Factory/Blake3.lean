import AvmSdk.Sdk.Machine

/-!
# BLAKE3 of one chunk

The hash function of the crate `factory-child-provenance`, which is meant for inputs of at most one
chunk.

* `blake3`: the function. `compress`, `g`: its rounds.
-/

namespace AvmSdk.Factory

open Wire Sdk

/-- Source: `IV` -/
def iv : List U32 :=
  [0x6a09e667, 0xbb67ae85, 0x3c6ef372, 0xa54ff53a, 0x510e527f, 0x9b05688c, 0x1f83d9ab, 0x5be0cd19]

/-- Source: `MSG_PERMUTATION` -/
def msgPermutation : List ℕ := [2, 6, 3, 10, 7, 0, 4, 13, 1, 11, 12, 5, 9, 14, 15, 8]

/-- Source: `CHUNK_START` -/
def chunkStart : U32 := 1
/-- Source: `CHUNK_END` -/
def chunkEnd : U32 := 2
/-- Source: `ROOT` -/
def root : U32 := 8

/-- Source: `g` -/
def g (s : List U32) (a b c d : ℕ) (x y : U32) : List U32 :=
  let s := s.set a (s.getD a 0 + s.getD b 0 + x)
  let s := s.set d ((s.getD d 0 ^^^ s.getD a 0).rotateRight 16)
  let s := s.set c (s.getD c 0 + s.getD d 0)
  let s := s.set b ((s.getD b 0 ^^^ s.getD c 0).rotateRight 12)
  let s := s.set a (s.getD a 0 + s.getD b 0 + y)
  let s := s.set d ((s.getD d 0 ^^^ s.getD a 0).rotateRight 8)
  let s := s.set c (s.getD c 0 + s.getD d 0)
  s.set b ((s.getD b 0 ^^^ s.getD c 0).rotateRight 7)

/-- Source: `compress`, `for round in 0..7`, the calls of `g` -/
def mix (s m : List U32) : List U32 :=
  let s := g s 0 4 8 12 (m.getD 0 0) (m.getD 1 0)
  let s := g s 1 5 9 13 (m.getD 2 0) (m.getD 3 0)
  let s := g s 2 6 10 14 (m.getD 4 0) (m.getD 5 0)
  let s := g s 3 7 11 15 (m.getD 6 0) (m.getD 7 0)
  let s := g s 0 5 10 15 (m.getD 8 0) (m.getD 9 0)
  let s := g s 1 6 11 12 (m.getD 10 0) (m.getD 11 0)
  let s := g s 2 7 8 13 (m.getD 12 0) (m.getD 13 0)
  g s 3 4 9 14 (m.getD 14 0) (m.getD 15 0)

/-- Source: `compress` -/
def compress (cv m : List U32) (blockLen flags : U32) : List U32 :=
  let s := cv ++ iv.take 4 ++ [0, 0, blockLen, flags]
  let (s, _) := (List.range 7).foldl (fun (s, m) round =>
    (mix s m, if round < 6 then msgPermutation.map fun i => m.getD i 0 else m)) (s, m)
  (List.range 8).map fun i => s.getD i 0 ^^^ s.getD (i + 8) 0

/-- The words of a block; a word that the block does not fill is filled up with zeros.
Source: `blake3`, `let mut words` -/
def blockWords (block : Bytes) : List U32 :=
  (List.range 16).map fun k =>
    let part := block.extract (4 * k) (4 * k + 4)
    ofLe 32 (part ++ List.replicate (4 - part.length) 0)

/-- One block. Source: `blake3`, `for index in 0..blocks` -/
def absorb (input : Bytes) (blocks : ℕ) (cv : List U32) (index : ℕ) : List U32 :=
  let block := input.extract (min (index * 64) input.length) (min ((index + 1) * 64) input.length)
  let flags := if index = 0 then chunkStart else 0
  let flags := if index + 1 = blocks then flags ||| (chunkEnd ||| root) else flags
  compress cv (blockWords block) (BitVec.ofNat 32 block.length) flags

/-- Source: `blake3` -/
def blake3 (input : Bytes) : Bytes32 :=
  let blocks := max ((input.length + 63) / 64) 1
  let cv := (List.range blocks).foldl (absorb input blocks) iv
  ⟨(List.range 8).flatMap fun i => toLe (cv.getD i 0), by simp [List.range_succ]⟩

/-- The hash of nothing. -/
example : (blake3 []).val.take 8 = [0xaf, 0x13, 0x49, 0xb9, 0xf5, 0xf9, 0xa1, 0xa6] := by
  decide +kernel

end AvmSdk.Factory
