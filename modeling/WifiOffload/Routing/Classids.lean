import WifiOffload.Routing.Cgroups
import WifiOffload.Config.Accepted

/-!
# When the write of a classid is redundant

`setupOneClass` reads `net_cls.classid` in base 16, and the kernel prints the attribute in
decimal. From two digits on the number that is read is larger than the one that is held, so the
set-up can take another value for the wanted one and leave it in place.
-/

namespace WifiOffload

/-- What a decimal text spells in base 16. -/
def spelledInHex (n : Nat) : Nat := Nat.ofDigits 16 (Nat.digits 10 n)

theorem spelledInHex_eq (n : Nat) : spelledInHex n = n % 10 + 16 * spelledInHex (n / 10) := by
  unfold spelledInHex
  by_cases h : n = 0
  · subst h; simp
  · rw [Nat.digits_def' (by omega) (by omega), Nat.ofDigits_cons]

theorem spelledInHex_of_lt {n : Nat} (h : n < 10) : spelledInHex n = n := by
  rw [spelledInHex_eq, Nat.div_eq_of_lt h, Nat.mod_eq_of_lt h]
  simp [spelledInHex]

theorem le_spelledInHex (n : Nat) : n ≤ spelledInHex n := by
  induction n using Nat.strong_induction_on with
  | _ n ih =>
    by_cases hn : n < 10
    · rw [spelledInHex_of_lt hn]
    · have hdiv := ih (n / 10) (by omega)
      have heq := spelledInHex_eq n
      omega

theorem lt_spelledInHex {n : Nat} (h : 10 ≤ n) : n < spelledInHex n := by
  have hdiv := le_spelledInHex (n / 10)
  have heq := spelledInHex_eq n
  omega

theorem readDecimalAsHex_eq (digits : Nat) {n : Nat} (h : n < 10 ^ digits) :
    readDecimalAsHex digits n = spelledInHex n := by
  induction digits generalizing n with
  | zero =>
    obtain rfl : n = 0 := by simpa using h
    rfl
  | succ digits ih =>
    have hdiv : n / 10 < 10 ^ digits := by
      apply Nat.div_lt_of_lt_mul
      rwa [Nat.pow_succ, Nat.mul_comm] at h
    rw [readDecimalAsHex, ih hdiv, spelledInHex_eq n]
    omega

theorem toNat_readClassid (classid : UInt32) :
    (readClassid classid).toNat = min (spelledInHex classid.toNat) (2 ^ 32 - 1) := by
  have hread := readDecimalAsHex_eq 10 (n := classid.toNat) (by have := classid.toNat_lt; omega)
  unfold readClassid
  simp only [hread]
  split
  · next h => rw [UInt32.toNat_ofNat_of_lt' h]; omega
  · next h => simp only [UInt32.reduceToNat]; omega

/-- A held value that is read as another one: two digits or more, and not the largest value, at
which the reading stops. -/
def MisreadAs (held classid : UInt32) : Prop :=
  10 ≤ held.toNat ∧ held.toNat < 2 ^ 32 - 1 ∧
    classid.toNat = min (spelledInHex held.toNat) (2 ^ 32 - 1)

instance (held classid : UInt32) : Decidable (MisreadAs held classid) :=
  inferInstanceAs (Decidable (_ ∧ _ ∧ _))

/-- A reading misses the held value exactly when that has two digits and is not the largest. -/
theorem misreadAs_iff {held classid : UInt32} :
    MisreadAs held classid ↔ readClassid held = classid ∧ held ≠ classid := by
  have hread := toNat_readClassid held
  have hlt := held.toNat_lt
  rw [MisreadAs, ← UInt32.toNat_inj, ne_eq, ← UInt32.toNat_inj, hread]
  by_cases hten : 10 ≤ held.toNat
  · have := lt_spelledInHex hten
    omega
  · have := spelledInHex_of_lt (n := held.toNat) (by omega)
    omega

/-- The classid that a set-up leaves is the wanted one, and nowhere is it another than after an
unconditional write. -/
def AsIfWritten (host : Host) (cls : PathClassConfig) (k after : Kernel) : Prop :=
  after.classidOf (host.classDir cls) = cls.classid ∧
    ∀ d, after.classidOf d =
      ((k.ensureDir (host.classDir cls)).writeClassid (host.classDir cls) cls.classid).classidOf d

section

variable {host : Host} {fault : Option CgroupFault} {cls : PathClassConfig} {k : Kernel}

theorem asIfWritten_withClass :
    AsIfWritten host cls k (k.withClass (host.classDir cls) cls.classid) ↔
      ¬ MisreadAs (k.heldClassid (host.classDir cls)) cls.classid := by
  have hself : (k.withClass (host.classDir cls) cls.classid).classidOf (host.classDir cls) =
      if readClassid (k.heldClassid (host.classDir cls)) = cls.classid
      then k.heldClassid (host.classDir cls) else cls.classid :=
    Kernel.classidOf_withClass_self
  rw [misreadAs_iff, AsIfWritten, hself]
  refine ⟨fun ⟨h, _⟩ => by grind, fun h => ⟨by grind, fun d => ?_⟩⟩
  by_cases hd : d = host.classDir cls
  · subst hd
    rw [hself, Kernel.classidOf_writeClassid_self (Kernel.mem_dirs_ensureDir.mpr (.inr rfl))]
    grind
  · rw [Kernel.classidOf_withClass_of_ne hd, Kernel.classidOf_writeClassid_of_ne hd,
      Kernel.classidOf_ensureDir_of_ne hd]

/-- A set-up that succeeds leaves the class its classid exactly when it does not misread the value
that it finds. -/
theorem setupOneClass_asIfWritten_iff (host : Host) (fault : Option CgroupFault)
    (cls : PathClassConfig) (k : Kernel) (hok : (setupOneClass host fault cls k).error = none) :
    AsIfWritten host cls k (setupOneClass host fault cls k).state ↔
      ¬ MisreadAs (k.heldClassid (host.classDir cls)) cls.classid := by
  rw [(setupOneClass_ok hok).2, asIfWritten_withClass]

end

/-- The shipped class `multipath`, whose directory is there with a classid. -/
def multipathKernel (classid : UInt32) : Kernel :=
  { bootedKernel with cgroups := bootedKernel.cgroups ++
      [⟨dirOf ["sys", "fs", "cgroup", "net_cls,net_prio", "multipath"], classid⟩] }

theorem setup_of_other_classid :
    AsIfWritten vlanHost pathPolicies[0] (multipathKernel 0x00100002)
      (setupOneClass vlanHost none pathPolicies[0] (multipathKernel 0x00100002)).state :=
  (setupOneClass_asIfWritten_iff vlanHost none pathPolicies[0] (multipathKernel 0x00100002)
    (by decide +kernel)).mpr (by decide +kernel)

/-- The value 100001 is taken for `0x00100001`. -/
theorem misread_classid_stays :
    ¬ ∀ (host : Host) (fault : Option CgroupFault) (cls : PathClassConfig) (k : Kernel),
        cls.classid ≠ 0 → (setupOneClass host fault cls k).error = none →
        AsIfWritten host cls k (setupOneClass host fault cls k).state := by
  intro h
  have hheld := (h vlanHost none pathPolicies[0] (multipathKernel 100001) (by decide)
    (by decide +kernel)).1
  exact absurd hheld (by decide +kernel)

end WifiOffload
