import AtomrAccel.FlashAttn.Forward
import AtomrAccel.Lib.Overflow

/-!
# Packed batches of sequences

A batch of sequences of any lengths is packed behind each other, and described by its number of
sequences, the longest of them and the number of all tokens.  The constructor compares the tokens
with the product of the other two, a product of 32-bit numbers.

* `CumulativeSeqlens.new`, `VarlenFwdRequest.new`: the constructors;
* `Fits`, `Exact`: what the constructor should accept, and that it does, in either build;
* `fits_of_accepted`: it never accepts too many tokens;
* `seqlens_exact_iff`: it is exact where no product that it evaluates reaches `2 ^ 32`.
-/

namespace AtomrAccel

namespace FlashAttn

open Overflow

/-- The totals and maxima of a batch of sequences. -/
structure CumulativeSeqlens where
  batchSize : UInt32
  maxSeqlenQ : UInt32
  maxSeqlenKv : UInt32
  totalQTokens : UInt32
  totalKvTokens : UInt32
  deriving DecidableEq, Repr

namespace CumulativeSeqlens

/-- The constructor; `none` is a panic. -/
def new (build : Build) (batchSize maxSeqlenQ maxSeqlenKv totalQTokens totalKvTokens : UInt32) :
    Option (Except FlashAttnError CumulativeSeqlens) :=
  if batchSize = 0 then some (.error .emptyBatch)
  else if maxSeqlenQ = 0 ∨ maxSeqlenKv = 0 then some (.error .zeroSeqlen)
  else do
    let boundQ ← mulU32 build batchSize maxSeqlenQ
    if boundQ < totalQTokens then return .error .seqlenOverflow
    else
      let boundKv ← mulU32 build batchSize maxSeqlenKv
      if boundKv < totalKvTokens then return .error .seqlenOverflow
      else return .ok ⟨batchSize, maxSeqlenQ, maxSeqlenKv, totalQTokens, totalKvTokens⟩

/-- There are sequences, and none is empty. -/
def Positive (s : CumulativeSeqlens) : Prop :=
  0 < s.batchSize ∧ 0 < s.maxSeqlenQ ∧ 0 < s.maxSeqlenKv

/-- The tokens fit into the sequences, in exact arithmetic. -/
def Fits (s : CumulativeSeqlens) : Prop :=
  s.Positive ∧ s.totalQTokens.toNat ≤ s.batchSize.toNat * s.maxSeqlenQ.toNat ∧
    s.totalKvTokens.toNat ≤ s.batchSize.toNat * s.maxSeqlenKv.toNat

/-- In every build the constructor returns, and accepts the arguments exactly when they fit. -/
def Exact (s : CumulativeSeqlens) : Prop :=
  ∀ build, ∃ answer,
    new build s.batchSize s.maxSeqlenQ s.maxSeqlenKv s.totalQTokens s.totalKvTokens = some answer ∧
      (answer = .ok s ↔ s.Fits)

variable {build : Build} {s : CumulativeSeqlens}

theorem new_of_not_positive (build : Build) (h : ¬ s.Positive) :
    ∃ e, new build s.batchSize s.maxSeqlenQ s.maxSeqlenKv s.totalQTokens s.totalKvTokens =
      some (.error e) := by
  unfold new
  split_ifs with hbatch hlen
  · exact ⟨_, rfl⟩
  · exact ⟨_, rfl⟩
  · obtain ⟨hq, hkv⟩ := not_or.1 hlen
    exact absurd ⟨UInt32.pos_iff_ne_zero.2 hbatch, UInt32.pos_iff_ne_zero.2 hq,
      UInt32.pos_iff_ne_zero.2 hkv⟩ h

theorem new_of_positive (h : s.Positive) :
    new build s.batchSize s.maxSeqlenQ s.maxSeqlenKv s.totalQTokens s.totalKvTokens =
      (mulU32 build s.batchSize s.maxSeqlenQ).bind fun boundQ =>
        if boundQ < s.totalQTokens then some (.error .seqlenOverflow)
        else (mulU32 build s.batchSize s.maxSeqlenKv).bind fun boundKv =>
          if boundKv < s.totalKvTokens then some (.error .seqlenOverflow) else some (.ok s) := by
  obtain ⟨hbatch, hq, hkv⟩ := h
  have hlen : ¬ (s.maxSeqlenQ = 0 ∨ s.maxSeqlenKv = 0) :=
    not_or.2 ⟨UInt32.pos_iff_ne_zero.1 hq, UInt32.pos_iff_ne_zero.1 hkv⟩
  rw [new, if_neg (UInt32.pos_iff_ne_zero.1 hbatch), if_neg hlen]
  rfl

/-- In neither build is a batch accepted that does not fit. -/
theorem fits_of_accepted
    (h : new build s.batchSize s.maxSeqlenQ s.maxSeqlenKv s.totalQTokens s.totalKvTokens =
      some (.ok s)) : s.Fits := by
  by_cases hpos : s.Positive
  · rw [new_of_positive hpos] at h
    obtain ⟨boundQ, hq, hrest⟩ := Option.bind_eq_some_iff.1 h
    split_ifs at hrest with hltQ
    · cases hrest
    · obtain ⟨boundKv, hkv, hlast⟩ := Option.bind_eq_some_iff.1 hrest
      split_ifs at hlast with hltKv
      · cases hlast
      · rw [UInt32.lt_iff_toNat_lt, Nat.not_lt] at hltQ hltKv
        exact ⟨hpos, hltQ.trans (toNat_le_of_mulU32 hq), hltKv.trans (toNat_le_of_mulU32 hkv)⟩
  · obtain ⟨e, hnew⟩ := new_of_not_positive build hpos
    rw [hnew] at h
    cases h

/-- The constructor is exact exactly for arguments with a zero among the first three, or with
products below `2 ^ 32`; the second product is not looked at once the first is exceeded. -/
theorem seqlens_exact_iff (s : CumulativeSeqlens) :
    s.Exact ↔ (s.Positive → s.batchSize.toNat * s.maxSeqlenQ.toNat < 2 ^ 32 ∧
      (s.totalQTokens.toNat ≤ s.batchSize.toNat * s.maxSeqlenQ.toNat →
        s.batchSize.toNat * s.maxSeqlenKv.toNat < 2 ^ 32)) := by
  constructor
  · intro hexact hpos
    obtain ⟨answer, hnew, -⟩ := hexact .checked
    rw [new_of_positive hpos] at hnew
    have hq : s.batchSize.toNat * s.maxSeqlenQ.toNat < 2 ^ 32 := by
      by_contra hover
      rw [mulU32_checked_of_le (Nat.not_lt.1 hover)] at hnew
      cases hnew
    refine ⟨hq, fun hle => ?_⟩
    have hbound : ¬ s.batchSize * s.maxSeqlenQ < s.totalQTokens := by
      rw [mul_lt_iff_of_lt hq]
      exact Nat.not_lt.2 hle
    by_contra hover
    rw [mulU32_of_lt hq, Option.bind_some, if_neg hbound,
      mulU32_checked_of_le (Nat.not_lt.1 hover)] at hnew
    cases hnew
  · intro hsmall build
    by_cases hpos : s.Positive
    · obtain ⟨hq, hkv⟩ := hsmall hpos
      rw [new_of_positive hpos, mulU32_of_lt hq, Option.bind_some]
      by_cases hle : s.totalQTokens.toNat ≤ s.batchSize.toNat * s.maxSeqlenQ.toNat
      · have hbound : ¬ s.batchSize * s.maxSeqlenQ < s.totalQTokens := by
          rw [mul_lt_iff_of_lt hq]
          exact Nat.not_lt.2 hle
        rw [if_neg hbound, mulU32_of_lt (hkv hle), Option.bind_some]
        by_cases hlast : s.totalKvTokens.toNat ≤ s.batchSize.toNat * s.maxSeqlenKv.toNat
        · rw [if_neg (by rw [mul_lt_iff_of_lt (hkv hle)]; exact Nat.not_lt.2 hlast)]
          exact ⟨_, rfl, iff_of_true rfl ⟨hpos, hle, hlast⟩⟩
        · rw [if_pos ((mul_lt_iff_of_lt (hkv hle)).2 (Nat.lt_of_not_le hlast))]
          exact ⟨_, rfl, iff_of_false nofun fun hfits => hlast hfits.2.2⟩
      · rw [if_pos ((mul_lt_iff_of_lt hq).2 (Nat.lt_of_not_le hle))]
        exact ⟨_, rfl, iff_of_false nofun fun hfits => hle hfits.2.1⟩
    · obtain ⟨e, hnew⟩ := new_of_not_positive build hpos
      exact ⟨_, hnew, iff_of_false nofun fun hfits => hpos hfits.1⟩

/-- Many short sequences, or few long ones, with tokens in each. -/
def packed : CumulativeSeqlens := ⟨65536, 65536, 1, 65536, 65536⟩

/-- The product of the number and the length of the sequences is `2 ^ 32`: one build panics, and the
other refuses tokens that fit. -/
theorem packed_refused :
    ¬ packed.Exact ∧ packed.Fits ∧ new .checked 65536 65536 1 65536 65536 = none ∧
      new .wrapping 65536 65536 1 65536 65536 = some (.error .seqlenOverflow) := by
  have hfits : packed.Fits := by
    unfold Fits Positive
    decide
  have hrefused : new .wrapping 65536 65536 1 65536 65536 = some (.error .seqlenOverflow) := by
    decide
  refine ⟨fun hexact => ?_, hfits, by decide, hrefused⟩
  obtain ⟨answer, hnew, hiff⟩ := hexact .wrapping
  have hanswer : answer = .error .seqlenOverflow := Option.some.inj (hnew.symm.trans hrefused)
  rw [hanswer] at hiff
  cases hiff.2 hfits

end CumulativeSeqlens

/-- A request with sequences of different lengths, with `T::dtype()`. -/
structure VarlenFwdRequest where
  dtype : DType
  arch : SmArch
  headDim : UInt32
  gqaRatio : UInt32
  mask : MaskKind
  bias : PositionBias
  sinkTokens : UInt32
  seqlens : CumulativeSeqlens
  deriving DecidableEq, Repr

namespace VarlenFwdRequest

/-- The key of a request. -/
def computeKey (r : VarlenFwdRequest) : DispatchKey where
  arch := r.arch
  dtype := r.dtype
  headDim := r.headDim
  causal := r.mask.isCausal
  varlen := true
  slidingWindow := r.mask.slidingWindow
  alibi := r.bias.requiresAlibiFlag
  sink := r.sinkTokens
  paged := false
  gqaRatio := r.gqaRatio

/-- A request whose key passes the checks. -/
def new (r : VarlenFwdRequest) : Except FlashAttnError VarlenFwdRequest := do
  r.computeKey.validateFwd.mapError .dispatch
  return r

/-- A kernel for packed batches is never that of a batch of one length. -/
theorem kernelName_ne {r : VarlenFwdRequest} {r' : FwdRequest} (h : r.new = .ok r)
    (h' : r'.Accepted) : r.computeKey.kernelName ≠ r'.dispatchKey.kernelName := by
  intro hname
  have hvalid : r.computeKey.validateFwd = .ok () := validateFwd_of_mapError h
  have hsame := (DispatchKey.kernelName_eq_iff (gqaRatio_ne_zero hvalid)
    (gqaRatio_ne_zero h'.validateFwd)).1 hname
  have hvarlen : true = r'.dispatchKey.varlen := congrArg DispatchKey.varlen hsame.2
  rw [FwdRequest.dispatchKey_eq r'] at hvarlen
  cases hvarlen

end VarlenFwdRequest

end FlashAttn

end AtomrAccel
