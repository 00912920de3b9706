import AtomrAccel.Lib.Liveness

/-!
# Streams and events of an accelerator

Any thread may issue commands to the streams of a device.  The device carries out the commands of
one stream in the order of their issue, and a `wait` only after the command that recorded its event;
otherwise it is free.  An event is named by the place of its `record` in the log of all commands.

* `Op`, `Command`, `Device`, `Label`, `Device.step`: the device and the log of what was issued;
* `Before`: the order that streams and events impose on the places of the log;
* `Respects`, `Respects.filter_mem_chain`: the part of a chain that has been carried out is an
  initial segment of the chain;
* `Device.Sound`, `Device.Sound.step`: what every schedule keeps;
* `Device.exists_ready`: a device with commands left can always go on;
* `eventually_done`: under weak fairness every command is carried out in the end;
* `memory`, `memory_eqOn`: what a chain leaves in a region that nothing else writes.
-/

namespace Streams

open Relation Transition

variable {S K α : Type*}

/-- A kernel, the recording of an event, or the wait for one. -/
inductive Op (K : Type*)
  | kernel (k : K)
  | record
  | wait (event : ℕ)

/-- The event that has to be recorded before. -/
def Op.event : Op K → Option ℕ
  | .wait e => some e
  | .kernel _ | .record => none

@[simp] theorem Op.event_wait (e : ℕ) : (wait e : Op K).event = some e := rfl
@[simp] theorem Op.event_kernel (k : K) : (kernel k).event = none := rfl
@[simp] theorem Op.event_record : (record : Op K).event = none := rfl

/-- An operation on a stream. -/
structure Command (S K : Type*) where
  stream : S
  op : Op K

/-- All commands in the order of their issue, and the places carried out so far in that order. -/
structure Device (S K : Type*) where
  log : List (Command S K)
  trace : List ℕ

/-- The steps of the device. -/
inductive Label (S K : Type*)
  | issue (c : Command S K)
  | carryOut (i : ℕ)

/-- Place `j` has to be carried out before place `i`. -/
def Before (log : List (Command S K)) (j i : ℕ) : Prop :=
  ∃ cj ∈ log[j]?, ∃ ci ∈ log[i]?, j < i ∧ cj.stream = ci.stream ∨ ci.op.event = some j

/-- What lies after place `n` does not matter for the order up to there. -/
theorem before_append {log log' : List (Command S K)} {j i : ℕ} (hj : j < log.length)
    (hi : i < log.length) : Before (log ++ log') j i ↔ Before log j i := by
  unfold Before
  rw [List.getElem?_append_left hj, List.getElem?_append_left hi]

theorem Before.lt_length {log : List (Command S K)} {j i : ℕ} (h : Before log j i) :
    j < log.length ∧ i < log.length := by
  obtain ⟨cj, hj, ci, hi, -⟩ := h
  exact ⟨(List.getElem?_eq_some_iff.1 hj).1, (List.getElem?_eq_some_iff.1 hi).1⟩

/-! ## Orders of execution -/

/-- Nothing stands in `t` before what `r` puts before it. -/
def Respects (r : α → α → Prop) (t : List α) : Prop :=
  ∀ l₁ i l₂, t = l₁ ++ i :: l₂ → ∀ j, r j i → j ∈ l₁

variable {r r' : α → α → Prop} {t : List α}

theorem respects_nil : Respects r ([] : List α) := by
  intro l₁ i l₂ h
  simp at h

theorem respects_concat {i : α} :
    Respects r (t ++ [i]) ↔ Respects r t ∧ ∀ j, r j i → j ∈ t := by
  constructor
  · intro h
    refine ⟨?_, fun j hj => h t i [] rfl j hj⟩
    rintro l₁ i' l₂ rfl j hj
    exact h l₁ i' (l₂ ++ [i]) (by simp) j hj
  · rintro ⟨h, hi⟩ l₁ i' l₂ ht j hj
    rcases List.eq_nil_or_concat l₂ with rfl | ⟨l₃, x, rfl⟩
    · obtain ⟨rfl, hii⟩ := List.append_inj' ht rfl
      obtain rfl : i = i' := by simpa using hii
      exact hi j hj
    · have hcut : t ++ [i] = (l₁ ++ i' :: l₃) ++ [x] := by simpa using ht
      exact h l₁ i' l₃ (List.append_inj' hcut rfl).1 j hj

theorem Respects.mono (h : Respects r t) (hr : ∀ i ∈ t, ∀ j, r' j i → r j i) : Respects r' t := by
  rintro l₁ i l₂ rfl j hj
  exact h l₁ i l₂ rfl j (hr i (by simp) j hj)

/-- An order of execution respects the transitive closure of what it respects. -/
theorem Respects.transGen (h : Respects r t) : Respects (TransGen r) t := by
  have hpast : ∀ {j i}, TransGen r j i → ∀ l₁ l₂, t = l₁ ++ i :: l₂ → j ∈ l₁ := by
    intro j i hji
    induction hji with
    | single hj => exact fun l₁ l₂ ht => h l₁ _ l₂ ht _ hj
    | tail _ hlast ih =>
      intro l₁ l₂ ht
      obtain ⟨a, b, rfl⟩ := List.append_of_mem (h l₁ _ l₂ ht _ hlast)
      exact List.mem_append_left _ (ih a (b ++ _ :: l₂) (by simpa using ht))
  exact fun l₁ i l₂ ht j hj => hpast hj l₁ l₂ ht

/-- What has been carried out has all of its past behind it. -/
theorem Respects.mem_of_transGen (h : Respects r t) {i j : α} (hi : i ∈ t)
    (hji : TransGen r j i) : j ∈ t := by
  obtain ⟨l₁, l₂, rfl⟩ := List.append_of_mem hi
  exact List.mem_append_left _ (h.transGen l₁ i l₂ rfl j hji)

/-- Nothing that has been carried out comes before itself. -/
theorem Respects.not_transGen_self (h : Respects r t) (ht : t.Nodup) {a : α} (ha : a ∈ t) :
    ¬ TransGen r a a := by
  intro haa
  obtain ⟨l₁, l₂, rfl⟩ := List.append_of_mem ha
  have hmem : a ∈ l₁ := h.transGen l₁ a l₂ rfl a haa
  exact (List.nodup_append.1 ht).2.2 a hmem a (by simp) rfl

/-- What has been carried out of a chain is an initial segment of it, in its order. -/
theorem Respects.filter_mem_chain [DecidableEq α] {c : List α} (h : Respects r t) (ht : t.Nodup)
    (hc : c.Pairwise (TransGen r)) : t.filter (· ∈ c) <+: c := by
  induction t using List.reverseRecOn with
  | nil => simp
  | append_singleton t i ih =>
    obtain ⟨hresp, -⟩ := respects_concat.1 h
    have hpast : ∀ j, TransGen r j i → j ∈ t := (respects_concat.1 h.transGen).2
    have hnew : i ∉ t := fun hi => (List.nodup_append.1 ht).2.2 i hi i (by simp) rfl
    obtain ⟨rest, hrest⟩ := ih hresp (List.nodup_append.1 ht).1
    rw [List.filter_append]
    by_cases hi : i ∈ c
    · -- everything of the chain before `i` is done, so `i` is next
      have hirest : i ∈ rest := by
        rw [← hrest, List.mem_append] at hi
        exact hi.resolve_left fun hold => hnew (List.mem_of_mem_filter hold)
      cases rest with
      | nil => simp at hirest
      | cons a rest =>
        rcases List.mem_cons.1 hirest with rfl | hlater
        · refine ⟨rest, ?_⟩
          rw [List.filter_singleton, decide_eq_true hi]
          simpa using hrest
        · have hain : a ∈ t := by
            rw [← hrest, List.pairwise_append, List.pairwise_cons] at hc
            exact hpast a (hc.2.1.1 i hlater)
          have hac : a ∈ c := by rw [← hrest]; simp
          have hadone : a ∈ t.filter (· ∈ c) := List.mem_filter.2 ⟨hain, decide_eq_true hac⟩
          rw [← hrest, List.pairwise_append] at hc
          have haa : TransGen r a a := hc.2.2 a hadone a (by simp)
          exact absurd haa (hresp.not_transGen_self (List.nodup_append.1 ht).1 hain)
    · rw [List.filter_singleton, decide_eq_false hi]
      exact ⟨rest, by simpa using hrest⟩

/-- A chain that has been carried out whole has been carried out in its order. -/
theorem Respects.filter_mem_chain_eq [DecidableEq α] {c : List α} (h : Respects r t) (ht : t.Nodup)
    (hc : c.Pairwise (TransGen r)) (hall : ∀ a ∈ c, a ∈ t) : t.filter (· ∈ c) = c := by
  have hnodup : c.Nodup := by
    apply hc.imp_of_mem
    intro a b ha _ hab
    rintro rfl
    exact h.not_transGen_self ht (hall a ha) hab
  have hsub : c ⊆ t.filter (· ∈ c) := by
    intro a ha
    exact List.mem_filter.2 ⟨hall a ha, decide_eq_true ha⟩
  have hlen : c.length ≤ (t.filter (· ∈ c)).length := (hnodup.subperm hsub).length_le
  have hinit := h.filter_mem_chain ht hc
  exact hinit.eq_of_length (le_antisymm hinit.length_le hlen)

/-! ## The device -/

section Device

variable {d d' : Device S K} {l : Label S K}

/-- Place `i` holds a command that may be carried out now. -/
def Device.Ready (d : Device S K) (i : ℕ) : Prop :=
  i < d.log.length ∧ i ∉ d.trace ∧ ∀ j < d.log.length, Before d.log j i → j ∈ d.trace

/-- What holds of a device under every schedule. -/
structure Device.Sound (d : Device S K) : Prop where
  waits : ∀ i (c : Command S K), d.log[i]? = some c → ∀ e ∈ c.op.event, e < i
  range : ∀ i ∈ d.trace, i < d.log.length
  nodup : d.trace.Nodup
  order : Respects (Before d.log) d.trace

theorem Device.sound_nil : (⟨[], []⟩ : Device S K).Sound :=
  ⟨by simp, by simp, List.nodup_nil, respects_nil⟩

theorem Device.Sound.before_lt (hd : d.Sound) {j i : ℕ} (h : Before d.log j i) : j < i := by
  obtain ⟨cj, hj, ci, hi, ⟨hlt, -⟩ | hwait⟩ := h
  · exact hlt
  · exact hd.waits i ci hi j hwait

/-- A device with commands left can always go on: the oldest of them is ready. -/
theorem Device.Sound.exists_ready (hd : d.Sound) (h : ∃ i < d.log.length, i ∉ d.trace) :
    ∃ i, d.Ready i := by
  have hleast := Nat.find_spec h
  refine ⟨Nat.find h, hleast.1, hleast.2, fun j hj hbefore => ?_⟩
  by_contra hundone
  exact Nat.find_min h (hd.before_lt hbefore) ⟨hj, hundone⟩

variable [DecidableEq S]

instance (log : List (Command S K)) (j i : ℕ) : Decidable (Before log j i) :=
  match hj : log[j]?, hi : log[i]? with
  | none, _ => isFalse fun ⟨_, h, _⟩ => by simp [hj] at h
  | some _, none => isFalse fun ⟨_, _, _, h, _⟩ => by simp [hi] at h
  | some cj, some ci =>
    decidable_of_iff (j < i ∧ cj.stream = ci.stream ∨ ci.op.event = some j)
      ⟨fun h => ⟨cj, hj, ci, hi, h⟩, fun ⟨cj', hj', ci', hi', h⟩ => by
        obtain rfl : cj = cj' := Option.some.inj (hj.symm.trans hj')
        obtain rfl : ci = ci' := Option.some.inj (hi.symm.trans hi')
        exact h⟩

instance (d : Device S K) (i : ℕ) : Decidable (d.Ready i) :=
  inferInstanceAs (Decidable (_ ∧ _ ∧ _))

/-- An event can be waited for once its recording has been issued. -/
def Device.step (d : Device S K) : Label S K → Option (Device S K)
  | .issue c =>
    if ∀ e ∈ c.op.event, e < d.log.length then some { d with log := d.log ++ [c] } else none
  | .carryOut i => if d.Ready i then some { d with trace := d.trace ++ [i] } else none

theorem Device.step_issue {c : Command S K} (h : ∀ e ∈ c.op.event, e < d.log.length) :
    d.step (.issue c) = some { d with log := d.log ++ [c] } := if_pos h

theorem Device.step_carryOut {i : ℕ} (h : d.Ready i) :
    d.step (.carryOut i) = some { d with trace := d.trace ++ [i] } := if_pos h

/-- A device that has carried out everything rests. -/
theorem Device.step_carryOut_of_done (h : ∀ i < d.log.length, i ∈ d.trace) (i : ℕ) :
    d.step (.carryOut i) = none :=
  if_neg fun hready => hready.2.1 (h i hready.1)

/-- What a step of the device or of a thread that issues to it can do. -/
theorem Device.step_cases (h : d.step l = some d') :
    (∃ c, l = .issue c ∧ (∀ e ∈ c.op.event, e < d.log.length) ∧
      d' = { d with log := d.log ++ [c] }) ∨
    ∃ i, l = .carryOut i ∧ d.Ready i ∧ d' = { d with trace := d.trace ++ [i] } := by
  cases l with
  | issue c =>
    by_cases hc : ∀ e ∈ c.op.event, e < d.log.length
    · rw [Device.step_issue hc] at h
      exact .inl ⟨c, rfl, hc, (Option.some.inj h).symm⟩
    · rw [Device.step, if_neg hc] at h
      cases h
  | carryOut i =>
    by_cases hi : d.Ready i
    · rw [Device.step_carryOut hi] at h
      exact .inr ⟨i, rfl, hi, (Option.some.inj h).symm⟩
    · rw [Device.step, if_neg hi] at h
      cases h

theorem Device.Sound.step (hd : d.Sound) (h : d.step l = some d') : d'.Sound := by
  rcases Device.step_cases h with ⟨c, -, hc, rfl⟩ | ⟨i, -, ⟨hi, hnew, hpast⟩, rfl⟩
  · refine ⟨fun i ci hci => ?_, fun i hi => ?_, hd.nodup, ?_⟩
    · rcases Nat.lt_or_ge i d.log.length with hlt | hge
      · rw [List.getElem?_append_left hlt] at hci
        exact hd.waits i ci hci
      · obtain ⟨hlast, -⟩ := List.getElem?_eq_some_iff.1 hci
        obtain rfl : i = d.log.length := by
          simp at hlast
          omega
        obtain rfl : c = ci := by simpa using hci
        exact hc
    · have := hd.range i hi
      simp
      omega
    · apply hd.order.mono
      intro i hi j hj
      have hji : j < d.log.length := by
        by_contra hge
        obtain ⟨cj, hcj, ci, hci, hbefore⟩ := hj
        have hlt := hd.range i hi
        rw [List.getElem?_append_left hlt] at hci
        rcases hbefore with ⟨hlt', -⟩ | hwait
        · omega
        · have := hd.waits i ci hci j hwait
          omega
      exact (before_append hji (hd.range i hi)).1 hj
  · refine ⟨hd.waits, fun k hk => ?_, ?_, respects_concat.2 ⟨hd.order, fun j hj => ?_⟩⟩
    · rcases List.mem_append.1 hk with hk | hk
      · exact hd.range k hk
      · obtain rfl : k = i := by simpa using hk
        exact hi
    · rw [List.nodup_append]
      refine ⟨hd.nodup, by simp, fun a ha b hb => ?_⟩
      obtain rfl : b = i := by simpa using hb
      rintro rfl
      exact hnew ha
    · exact hpast j hj.lt_length.1 hj

/-- A step adds to the log and to the trace. -/
theorem Device.step_grows (h : d.step l = some d') : d.log <+: d'.log ∧ d.trace <+: d'.trace := by
  rcases Device.step_cases h with ⟨c, -, -, rfl⟩ | ⟨i, -, -, rfl⟩
  · exact ⟨List.prefix_append _ _, List.prefix_rfl⟩
  · exact ⟨List.prefix_rfl, List.prefix_append _ _⟩

/-- What is ready stays so until it is carried out. -/
theorem Device.Ready.step (hd : d.Sound) {i : ℕ} (hi : d.Ready i) (h : d.step l = some d')
    (hnot : i ∉ d'.trace) : d'.Ready i := by
  obtain ⟨hlt, -, hpast⟩ := hi
  rcases Device.step_cases h with ⟨c, -, -, rfl⟩ | ⟨k, -, -, rfl⟩
  · refine ⟨by simp; omega, hnot, fun j hj hbefore => ?_⟩
    obtain ⟨cj, hcj, ci, hci, horder⟩ := id hbefore
    rw [List.getElem?_append_left hlt] at hci
    have hji : j < i := horder.elim And.left fun hwait => hd.waits i ci hci j hwait
    exact hpast j (by omega) ((before_append (by omega) hlt).1 hbefore)
  · exact ⟨hlt, hnot, fun j hj hbefore => List.mem_append_left _ (hpast j hj hbefore)⟩

end Device

/-! ## Progress -/

section Progress

variable [DecidableEq S] {σ ι π : Type*} {T : System σ ι} {dev : σ → Device S K}

/-- The device is the component `dev` of a system whose other parties can only issue to it. -/
structure Hosts (T : System σ ι) (dev : σ → Device S K) (party : ι → Option π) (unit : ℕ → π) :
    Prop where
  start : (dev T.init).Sound
  step : ∀ s l s', T.step s l = some s' → dev s' = dev s ∨ ∃ l', (dev s).step l' = some (dev s')
  enabled : ∀ s i, (dev s).Ready i → T.Enabled party (unit i) s
  moves : ∀ s l s' i, T.step s l = some s' → party l = some (unit i) → i ∈ (dev s').trace

variable {party : ι → Option π} {unit : ℕ → π} {ρ : T.Endless}

theorem Hosts.sound_step (hT : Hosts T dev party unit) {s s' : σ} {l : ι} (hs : (dev s).Sound)
    (h : T.step s l = some s') : (dev s').Sound := by
  rcases hT.step s l s' h with heq | ⟨l', hl'⟩
  · rw [heq]
    exact hs
  · exact hs.step hl'

theorem Hosts.next (hT : Hosts T dev party unit) (k : ℕ) :
    dev (ρ.state (k + 1)) = dev (ρ.state k) ∨
      ∃ l, (dev (ρ.state k)).step l = some (dev (ρ.state (k + 1))) := by
  cases hl : ρ.label k with
  | none => exact .inl (congrArg dev (ρ.next_of_none hl))
  | some l => exact hT.step _ l _ (ρ.next_of_some hl)

theorem Hosts.sound (hT : Hosts T dev party unit) (k : ℕ) : (dev (ρ.state k)).Sound := by
  induction k with
  | zero =>
    rw [ρ.start]
    exact hT.start
  | succ k ih =>
    rcases hT.next (ρ := ρ) k with heq | ⟨l, hl⟩
    · rw [heq]
      exact ih
    · exact ih.step hl

theorem Hosts.grows (hT : Hosts T dev party unit) {k m : ℕ} (hkm : k ≤ m) :
    (dev (ρ.state k)).log <+: (dev (ρ.state m)).log ∧
      (dev (ρ.state k)).trace <+: (dev (ρ.state m)).trace := by
  induction hkm with
  | refl => exact ⟨List.prefix_rfl, List.prefix_rfl⟩
  | @step m _ ih =>
    rcases hT.next (ρ := ρ) m with heq | ⟨l, hl⟩
    · rw [heq]
      exact ih
    · obtain ⟨hlog, htrace⟩ := Device.step_grows hl
      exact ⟨ih.1.trans hlog, ih.2.trans htrace⟩

/-- Under weak fairness every command that has been issued is carried out. -/
theorem Hosts.eventually_done (hT : Hosts T dev party unit) (hfair : ρ.Fair party) {k i : ℕ}
    (hi : i < (dev (ρ.state k)).log.length) : ∃ m ≥ k, i ∈ (dev (ρ.state m)).trace := by
  induction i using Nat.strong_induction_on generalizing k with
  | _ i ih =>
    -- from some moment on, everything before `i` is done
    have hpast : ∀ n ≤ i, ∃ m ≥ k, ∀ j < n, j ∈ (dev (ρ.state m)).trace := by
      intro n hn
      induction n with
      | zero => exact ⟨k, le_rfl, fun j hj => absurd hj (Nat.not_lt_zero j)⟩
      | succ n ihn =>
        obtain ⟨m, hm, hdone⟩ := ihn (by omega)
        have hlen := (hT.grows (ρ := ρ) hm).1.length_le
        obtain ⟨m', hm', hdone'⟩ := ih n (by omega) (k := m) (by omega)
        refine ⟨m', hm.trans hm', fun j hj => ?_⟩
        rcases Nat.lt_succ_iff_lt_or_eq.1 hj with hlt | rfl
        · exact (hT.grows (ρ := ρ) hm').2.subset (hdone j hlt)
        · exact hdone'
    obtain ⟨m, hm, hdone⟩ := hpast i le_rfl
    by_contra hnever
    have hready : ∀ m' ≥ m, (dev (ρ.state m')).Ready i := by
      intro m' hm'
      refine ⟨hi.trans_le (hT.grows (ρ := ρ) (hm.trans hm')).1.length_le,
        fun hmem => hnever ⟨m', hm.trans hm', hmem⟩, fun j hj hbefore => ?_⟩
      have hji := (hT.sound (ρ := ρ) m').before_lt hbefore
      exact (hT.grows (ρ := ρ) hm').2.subset (hdone j hji)
    obtain ⟨m', hm', l, hl, hparty⟩ := hfair (unit i) m fun m' hm' =>
      hT.enabled _ i (hready m' hm')
    exact hnever ⟨m' + 1, by omega, hT.moves _ l _ i (ρ.next_of_some hl) hparty⟩

end Progress

/-! ## Memory -/

section Memory

variable {L V : Type*} (sem : K → (L → V) → L → V)

/-- Events leave the memory as it is. -/
def Op.effect : Op K → (L → V) → L → V
  | .kernel k, m => sem k m
  | .record, m | .wait _, m => m

/-- What the command at a place does; there is nothing to do beyond the log. -/
def effectAt (log : List (Command S K)) (m : L → V) (i : ℕ) : L → V :=
  log[i]?.elim m fun c => c.op.effect sem m

/-- The memory after the commands at the places `t` of the log, one after the other. -/
def memory (log : List (Command S K)) (t : List ℕ) (m : L → V) : L → V :=
  t.foldl (effectAt sem log) m

theorem memory_append (log : List (Command S K)) (t t' : List ℕ) (m : L → V) :
    memory sem log (t ++ t') m = memory sem log t' (memory sem log t m) :=
  List.foldl_append

/-- The memory after some places depends on the commands at these only. -/
theorem memory_log_append (log log' : List (Command S K)) {t : List ℕ}
    (ht : ∀ i ∈ t, i < log.length) (m : L → V) :
    memory sem (log ++ log') t m = memory sem log t m := by
  apply List.foldl_ext
  intro m' i hi
  rw [effectAt, effectAt, List.getElem?_append_left (ht i hi)]

/-- A region that only the places of `c` write, and these by what they read there, is left as the
places of `c` alone would leave it. -/
theorem memory_eqOn {log : List (Command S K)} {R : Set L} {c t : List ℕ}
    (hin : ∀ i ∈ c, ∀ m m', Set.EqOn m m' R →
      Set.EqOn (effectAt sem log m i) (effectAt sem log m' i) R)
    (hout : ∀ i ∈ t, i ∉ c → ∀ m, Set.EqOn (effectAt sem log m i) m R)
    {m m' : L → V} (h : Set.EqOn m m' R) :
    Set.EqOn (memory sem log t m) (memory sem log (t.filter (· ∈ c)) m') R := by
  induction t generalizing m m' with
  | nil => exact h
  | cons i t ih =>
    obtain ⟨hi', ht⟩ := List.forall_mem_cons.1 hout
    by_cases hi : i ∈ c
    · rw [List.filter_cons_of_pos (by simpa using hi)]
      exact ih ht (hin i hi m m' h)
    · rw [List.filter_cons_of_neg (by simpa using hi)]
      exact ih ht ((hi' hi m).trans h)

end Memory

end Streams
