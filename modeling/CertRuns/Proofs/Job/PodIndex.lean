import CertRuns.Proofs.Job.Names
import CertRuns.Text.Blank

/-!
# Which names have a number

A name has a number if it is the stem of all pod names, a dash, and then digits, which one plus
sign may lead. Zeros may lead the digits too, but only a number of 64 bits is read.

* `Numbered name n` : the form of a name with a number; `podIndex?_eq_some_iff` : a number is read
  from just the names that have one;
* `Numbered.ending`, `Numbered.not_blank` : what stands in such a name;
* `podIndex?_exact` : what is read from any name, from those that are given out, and from odd ones.
-/

namespace CertRuns.Job

open Decimal (Digit)

theorem rest?_eq_some_iff {stem s rest : List Char} :
    rest? stem s = some rest ↔ s = stem ++ rest := by
  refine ⟨fun h => ?_, fun h => h ▸ rest?_append stem rest⟩
  fun_induction rest? stem s with
  | case1 s => exact Option.some.inj h
  | case2 c stem s ih => rw [ih h, List.cons_append]
  | case3 c stem d s hne => cases h
  | case4 c stem => cases h

/-- The name is the stem of all pod names with a dash, then perhaps one plus sign, and then digits
that denote `n`. -/
def Numbered (name : String) (n : Nat) : Prop :=
  ∃ (sign : List Char) (ds : List Digit), (sign = [] ∨ sign = ['+']) ∧ ds ≠ [] ∧
    name.toList = "cnf-job-run-".toList ++ (sign ++ ds.map Digit.char) ∧ Decimal.value ds = n

theorem podIndex?_eq_some_iff {name : String} {n : UInt64} :
    podIndex? name = some n ↔ Numbered name n.toNat := by
  have hstem : podNameStem.toList ++ ['-'] = "cnf-job-run-".toList := rfl
  rw [podIndex?, hstem]
  simp only [Option.bind_eq_bind, Option.bind_eq_some_iff, rest?_eq_some_iff,
    Option.map_eq_some_iff, Decimal.unsigned?_eq_some_iff]
  constructor
  · rintro ⟨rest, hname, k, ⟨hlt, sign, ds, hsign, hne, rfl, hv⟩, rfl⟩
    have hk : (UInt64.ofNat k).toNat = k := Nat.mod_eq_of_lt hlt
    exact ⟨sign, ds, hsign, hne, hname, hv.trans hk.symm⟩
  · rintro ⟨sign, ds, hsign, hne, hname, hv⟩
    exact ⟨_, hname, n.toNat, ⟨n.toNat_lt, sign, ds, hsign, hne, rfl, hv⟩, UInt64.ofNat_toNat⟩

section
variable {name rest : String} {n : Nat}

theorem podIndex?_eq_none (h : ∀ n, ¬Numbered name n) : podIndex? name = none :=
  Option.eq_none_iff_forall_ne_some.mpr fun n hn => h n.toNat (podIndex?_eq_some_iff.mp hn)

theorem Numbered.unique {k : Nat} (h : Numbered name n) (h' : Numbered name k) : n = k := by
  obtain ⟨sign, ds, hsign, hne, hname, rfl⟩ := h
  obtain ⟨sign', ds', hsign', hne', hname', rfl⟩ := h'
  have hread {k : Nat} {sign : List Char} {ds : List Digit} (hsign : sign = [] ∨ sign = ['+'])
      (hne : ds ≠ []) (hk : Decimal.value ds < k) :
      Decimal.unsigned? k (sign ++ ds.map Digit.char) = some (Decimal.value ds) :=
    Decimal.unsigned?_eq_some_iff.mpr ⟨hk, sign, ds, hsign, hne, rfl, rfl⟩
  have hbody := List.append_cancel_left (hname.symm.trans hname')
  have h := hread hsign hne (k := Decimal.value ds + Decimal.value ds' + 1) (by omega)
  rw [hbody, hread hsign' hne' (by omega), Option.some.injEq] at h
  exact h.symm

theorem Numbered.ending (h : Numbered ("cnf-job-run-" ++ rest) n) :
    (∃ c ∈ rest.toList, (Decimal.digit? c).isSome = true) ∧ '-' ∉ rest.toList := by
  obtain ⟨sign, ds, hsign, hne, hname, -⟩ := h
  rw [String.toList_append] at hname
  rw [List.append_cancel_left hname]
  obtain ⟨d, ds, rfl⟩ := List.exists_cons_of_ne_nil hne
  refine ⟨⟨d.char, by simp, by rw [Decimal.digit?_char]; rfl⟩, fun hmem => ?_⟩
  rcases List.mem_append.mp hmem with hmem | hmem
  · rcases hsign with rfl | rfl <;> simp at hmem
  · obtain ⟨d, -, hd⟩ := List.mem_map.mp hmem
    exact (Decimal.char_ne_sign d).2 hd

theorem Numbered.not_blank (h : Numbered name n) : ∀ c ∈ name.toList, Text.isBlank c = false := by
  obtain ⟨sign, ds, hsign, -, hname, -⟩ := h
  have hstem : ("cnf-job-run-".toList.all fun c => !Text.isBlank c) = true := by decide
  have hdigit : ∀ d : Digit, Text.isBlank d.char = false := by decide
  rw [hname]
  simp only [List.forall_mem_append, List.forall_mem_map]
  refine ⟨fun c hc => ?_, ?_, fun d _ => hdigit d⟩
  · simpa using List.all_eq_true.mp hstem c hc
  · rcases hsign with rfl | rfl
    · exact List.forall_mem_nil _
    · exact List.forall_mem_singleton.mpr (by decide)

end

/-- A number is read from a name iff the name has one of 64 bits, so it is read from every name that
is given out, different numbers have different names, and nothing is read from a name with a greater
number, without any digit after the stem, with a dash there, or with a blank character anywhere. -/
theorem podIndex?_exact :
    (∀ name n, podIndex? name = some n ↔ Numbered name n.toNat) ∧
    (∀ n, podIndex? (podName n) = some n) ∧ Function.Injective podName ∧
    (∀ name n, Numbered name n → longBound ≤ n → podIndex? name = none) ∧
    (∀ rest : String, (∀ c ∈ rest.toList, Decimal.digit? c = none) →
      podIndex? ("cnf-job-run-" ++ rest) = none) ∧
    (∀ rest : String, '-' ∈ rest.toList → podIndex? ("cnf-job-run-" ++ rest) = none) ∧
    ∀ name : String, (∃ c ∈ name.toList, Text.isBlank c = true) → podIndex? name = none := by
  refine ⟨fun _ _ => podIndex?_eq_some_iff, podIndex?_podName, fun _ _ => podName_injective,
    fun name n hn hle => ?_, fun rest hrest => ?_, fun rest hdash => ?_, fun name hblank => ?_⟩
  · refine Option.eq_none_iff_forall_ne_some.mpr fun k hk => ?_
    have hsame := hn.unique (podIndex?_eq_some_iff.mp hk)
    have hlt : k.toNat < longBound := k.toNat_lt
    omega
  · refine podIndex?_eq_none fun n hn => ?_
    obtain ⟨c, hc, hdigit⟩ := hn.ending.1
    rw [hrest c hc] at hdigit
    cases hdigit
  · exact podIndex?_eq_none fun n hn => hn.ending.2 hdash
  · obtain ⟨c, hc, hblank⟩ := hblank
    refine podIndex?_eq_none fun n hn => ?_
    rw [hn.not_blank c hc] at hblank
    cases hblank

/-- Zeros and one sign may lead a number, up to the greatest of 64 bits. -/
example : podIndex? "cnf-job-run-+007" = some 7 ∧
    podIndex? "cnf-job-run-18446744073709551615" = some 18446744073709551615 ∧
    podIndex? "cnf-job-run-18446744073709551616" = none := by decide

end CertRuns.Job
