import BlockShell.Proofs.Arguments.Field
import BlockShell.Target.OfArguments
import Mathlib.Data.List.Forall2

/-!
# When a target is built

Building a target, its layout, its cache or a leg succeeds in exactly one case, stated through the
fields that are read.  The legs of a composite succeed one by one (`buildLegs_eq_ok_iff`).
-/

namespace BlockShell

variable {args : Arguments}

/-! ## Single layouts -/

theorem Raid0.ofArguments_eq_ok_iff {s : Raid0} :
    Raid0.ofArguments args = .ok s ↔
      args.positiveSectors "strip_len_sectors" = .ok s.stripLength ∧
        args.paths "paths" = .ok s.paths := by
  unfold Raid0.ofArguments
  rw [both_eq_ok_iff]
  constructor
  · rintro ⟨n, paths, hn, hp, rfl⟩
    exact ⟨hn, hp⟩
  · rintro ⟨hn, hp⟩
    exact ⟨_, _, hn, hp, rfl⟩

theorem Raid1.ofArguments_eq_ok_iff {s : Raid1} :
    Raid1.ofArguments args = .ok s ↔
      args.sectorsOr "read_len_sectors_per_path" 0 = .ok s.readLength ∧
        args.paths "paths" = .ok s.paths := by
  unfold Raid1.ofArguments
  rw [both_eq_ok_iff]
  constructor
  · rintro ⟨n, paths, hn, hp, rfl⟩
    exact ⟨hn, hp⟩
  · rintro ⟨hn, hp⟩
    exact ⟨_, _, hn, hp, rfl⟩

theorem Raid4.ofArguments_eq_ok_iff {s : Raid4} :
    Raid4.ofArguments args = .ok s ↔
      args.positiveSectors "strip_len_sectors" = .ok s.stripLength ∧
        args.paths "data_paths" = .ok s.dataPaths ∧
        args.nonemptyText "parity_path" = .ok s.parityPath.text ∧
        ∀ p ∈ s.dataPaths, ¬ p.SameAs s.parityPath := by
  unfold Raid4.ofArguments
  simp only [bind_eq_ok_iff]
  constructor
  · rintro ⟨n, hn, paths, hp, text, ht, h⟩
    by_cases hsame : ∃ p ∈ paths, p.SameAs ⟨text⟩
    · rw [if_pos hsame] at h
      cases h
    · rw [if_neg hsame] at h
      cases h
      exact ⟨hn, hp, ht, fun p hp h => hsame ⟨p, hp, h⟩⟩
  · rintro ⟨hn, hp, ht, hsame⟩
    refine ⟨_, hn, _, hp, _, ht, ?_⟩
    rw [if_neg fun ⟨p, hp, h⟩ => hsame p hp h]
    rfl

theorem Raid5.ofArguments_eq_ok_iff {s : Raid5} :
    Raid5.ofArguments args = .ok s ↔
      args.positiveSectors "strip_len_sectors" = .ok s.stripLength ∧
        args.paths "paths" = .ok s.paths := by
  unfold Raid5.ofArguments
  rw [both_eq_ok_iff]
  constructor
  · rintro ⟨n, paths, hn, hp, rfl⟩
    exact ⟨hn, hp⟩
  · rintro ⟨hn, hp⟩
    exact ⟨_, _, hn, hp, rfl⟩

/-! ## Composites -/

section Legs

variable {α : Type} {build : Arguments → Except FieldError α} {field : String}

theorem buildLegs_eq_ok_iff {position : Nat} {groups : List String} {legs : List α} :
    buildLegs build field position groups = .ok legs ↔
      List.Forall₂ (fun group leg => build (.ofLeg group) = .ok leg) groups legs := by
  induction groups generalizing position legs with
  | nil => cases legs <;> simp [buildLegs]
  | cons group groups ih =>
    unfold buildLegs
    cases hb : build (.ofLeg group) with
    | error cause => cases legs <;> simp [hb]
    | ok leg =>
      dsimp only
      rw [map_eq_ok_iff]
      constructor
      · rintro ⟨rest, hrest, rfl⟩
        exact .cons hb (ih.1 hrest)
      · intro h
        cases h with
        | cons hl hrest =>
          cases hb.symm.trans hl
          exact ⟨_, ih.2 hrest, rfl⟩

theorem legs_eq_ok_iff {legs : List α} :
    args.legs build field = .ok legs ↔
      ∃ list, args.nonemptyText field = .ok list ∧
        List.Forall₂ (fun group leg => build (.ofLeg group) = .ok leg)
          (Text.pieces Arguments.legDelimiter list) legs := by
  unfold Arguments.legs
  rw [bind_eq_ok_iff]
  simp only [buildLegs_eq_ok_iff]

end Legs

/-! ## Targets -/

theorem Layout.kind_of_ofArguments {kind : Kind} {l : Layout}
    (h : Layout.ofArguments kind args = .ok l) : l.kind = kind := by
  cases kind <;> unfold Layout.ofArguments at h <;> dsimp only at h
  case null | inMemory => cases h; rfl
  case plain | raid0 | raid1 | raid4 | raid5 =>
    obtain ⟨_, -, rfl⟩ := map_eq_ok_iff.1 h
    rfl
  case raid10 | raid40 | raid50 =>
    obtain ⟨_, _, -, -, rfl⟩ := both_eq_ok_iff.1 h
    rfl

theorem Kind.read_eq_ok_iff {s : String} {k : Kind} : Kind.read s = .ok k ↔ s = k.name := by
  unfold Kind.read
  constructor
  · intro h
    split at h
    · next hk =>
      cases h
      exact (name_of_ofName? hk).symm
    · cases h
  · rintro rfl
    simp

theorem Cache.ofArguments_eq_ok_iff {cache : Option Cache} :
    Cache.ofArguments args = .ok cache ↔
      ∃ n b, args.sectorsOr "cache_len_sectors" 0 = .ok n ∧
        args.flagOr "cache_write_through_enable" true = .ok b ∧
        (if 0 < n then some ⟨n, b⟩ else none) = cache := by
  unfold Cache.ofArguments
  rw [both_eq_ok_iff]

theorem Target.ofArguments_eq_ok_iff {t : Target} :
    Target.ofArguments args = .ok t ↔
      args.nonemptyText "name" = .ok t.name ∧
        args.positiveSectors "capacity_sectors" = .ok t.capacity ∧
        Cache.ofArguments args = .ok t.cache ∧
        args.get? "type" = some t.layout.kind.name ∧
        Layout.ofArguments t.layout.kind args = .ok t.layout := by
  unfold Target.ofArguments
  simp only [bind_eq_ok_iff, Arguments.text_eq_ok_iff, Kind.read_eq_ok_iff]
  constructor
  · rintro ⟨name, hname, n, hn, cache, hcache, s, hs, k, rfl, l, hl, h⟩
    cases h
    have hk := Layout.kind_of_ofArguments hl
    exact ⟨hname, hn, hcache, hk ▸ hs, hk ▸ hl⟩
  · rintro ⟨hname, hn, hcache, hs, hl⟩
    exact ⟨_, hname, _, hn, _, hcache, _, hs, _, rfl, _, hl, rfl⟩

end BlockShell
