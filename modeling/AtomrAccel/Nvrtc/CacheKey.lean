import AtomrAccel.Lib.PrefixCode
import AtomrAccel.Nvrtc.Compile

/-!
# What tells cache keys apart

The hasher of the options is fed one stream of bytes: each option with its length before it and a
separator after it.  The stream tells the options, and the path of an entry tells its key, so that
two keys clash in a hash at most, never in a name.

* `optionBytes`, `optionsStream`: the stream;
* `hashOptions_eq`: the hash of the options is that of the stream;
* `decodes_option`: an option is read off the front of a stream;
* `keys_unambiguous`: streams tell options, and paths tell keys.
-/

namespace AtomrAccel

namespace Nvrtc

open PrefixCode

/-- What one option feeds to the hasher. -/
def optionBytes (bytes : List UInt8) : List UInt8 :=
  toNeBytes (UInt64.ofNat bytes.length) ++ bytes ++ [0xff]

/-- The bytes of all options, each behind its length. -/
def optionsStream (opts : List (List UInt8)) : List UInt8 := opts.flatMap optionBytes

theorem fnvWrite_append (h : UInt64) (bytes bytes' : List UInt8) :
    fnvWrite h (bytes ++ bytes') = fnvWrite (fnvWrite h bytes) bytes' := List.foldl_append

/-- The options are hashed by their stream. -/
theorem hashOptions_eq (opts : List String) :
    hashOptions opts = fnvWrite fnvOffsetBasis64 (optionsStream (opts.map asBytes)) := by
  unfold hashOptions optionsStream
  generalize fnvOffsetBasis64 = h
  induction opts generalizing h with
  | nil => rfl
  | cons opt opts ih =>
    rw [List.foldl_cons, ih, List.map_cons, List.flatMap_cons, fnvWrite_append]
    unfold optionBytes
    rw [fnvWrite_append, fnvWrite_append]

theorem asBytes_injective : Function.Injective asBytes := by
  intro s t h
  have hs := Toolchain.fromUTF8_asBytes s
  rw [h, Toolchain.fromUTF8_asBytes t] at hs
  exact (Option.some.inj hs).symm

theorem toNeBytes_eq (n : UInt64) : toNeBytes n = leBytes 8 n.toNat := by
  rw [leBytes_eq_map]
  apply List.map_congr_left
  intro i hi
  have hlt : i < 8 := List.mem_range.1 hi
  have hshift : (8 * UInt64.ofNat i).toNat % 64 = 8 * i := by
    rw [UInt64.toNat_mul, UInt64.toNat_ofNat']
    show 8 * (i % 2 ^ 64) % 2 ^ 64 % 64 = 8 * i
    omega
  apply UInt8.toNat_inj.1
  rw [UInt64.toNat_toUInt8, UInt64.toNat_shiftRight, hshift, UInt8.toNat_ofNat',
    Nat.shiftRight_eq_div_pow, pow_mul]
  exact (Nat.mod_mod _ _).symm

/-- An option whose length fits into the prefix. -/
abbrev Fitting := { bytes : List UInt8 // bytes.length < 2 ^ 64 }

/-- An option is read off a stream, whatever bytes it and the rest consist of. -/
theorem decodes_option : Decodes (fun o : Fitting => optionBytes o.val) fun _ => True := by
  rintro ⟨a, ha⟩ ⟨b, hb⟩ s t - - h
  simp only [optionBytes, toNeBytes_eq, List.append_assoc] at h
  obtain ⟨hvalue, hrest⟩ := (leBytes_append_inj (UInt64.toNat_lt _) (UInt64.toNat_lt _)).1 h
  have hlen : a.length = b.length := by
    rwa [UInt64.toNat_ofNat_of_lt' ha, UInt64.toNat_ofNat_of_lt' hb] at hvalue
  obtain ⟨rfl, htail⟩ := List.append_inj hrest hlen
  exact ⟨rfl, List.append_cancel_left htail⟩

theorem optionsStream_inj {opts opts' : List (List UInt8)} (h : ∀ o ∈ opts, o.length < 2 ^ 64)
    (h' : ∀ o ∈ opts', o.length < 2 ^ 64) (heq : optionsStream opts = optionsStream opts') :
    opts = opts' := by
  lift opts to List Fitting using h
  lift opts' to List Fitting using h'
  have hne : ∀ o : Fitting, optionBytes o.val ≠ [] := fun o => List.append_ne_nil_of_right_ne_nil
    _ (List.cons_ne_nil _ _)
  unfold optionsStream at heq
  rw [List.flatMap_map, List.flatMap_map] at heq
  rw [decodes_option.flatMap_injective hne heq]

/-- The streams of different options differ, and different keys share neither the file of their
entry nor a temporary file. -/
theorem keys_unambiguous :
    (∀ opts opts' : List (List UInt8), (∀ o ∈ opts, o.length < 2 ^ 64) →
      (∀ o ∈ opts', o.length < 2 ^ 64) → optionsStream opts = optionsStream opts' → opts = opts') ∧
    (∀ opts : List String,
      hashOptions opts = fnvWrite fnvOffsetBasis64 (optionsStream (opts.map asBytes))) ∧
    Function.Injective asBytes ∧
    ∀ (cache : NvrtcCache) (key key' : NvrtcCacheKey), key ≠ key' →
      cache.entryPath key ≠ cache.entryPath key' ∧ cache.tmpPath key ≠ cache.tmpPath key' ∧
        cache.entryPath key ≠ cache.tmpPath key' := by
  refine ⟨fun opts opts' h h' => optionsStream_inj h h', hashOptions_eq, asBytes_injective,
    fun cache key key' hne => ⟨?_, ?_, cache.entryPath_ne_tmpPath_of_any key key'⟩⟩
  · exact fun heq => hne (cache.entryPath_injective heq)
  · intro heq
    exact hne (cache.entryPath_injective ((String.append_left_inj ".tmp").1 heq))

/-- `["ab", "c"]` and `["a", "bc"]`. -/
theorem split_options_streams_differ :
    optionsStream [[97, 98], [99]] ≠ optionsStream [[97], [98, 99]] := by
  intro heq
  have hopts : [[(97 : UInt8), 98], [99]] = [[97], [98, 99]] :=
    keys_unambiguous.1 [[97, 98], [99]] [[97], [98, 99]] (by decide) (by decide) heq
  exact absurd hopts (by decide)

end Nvrtc

end AtomrAccel
