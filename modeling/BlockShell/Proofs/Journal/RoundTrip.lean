import BlockShell.Proofs.Journal.InStep

/-!
# What is stored is what is loaded

The text of a registry is decoded as the registry, whatever texts and numbers it holds and whether or
not any lines can make it; so different registries have different texts, and what a store has stored
is what is loaded afterwards (`store_roundTrip`).
-/

namespace BlockShell

theorem Registry.text_injective : Function.Injective Registry.text := by
  intro r r' h
  have hread := r'.ofText?_text
  rw [← h, r.ofText?_text] at hread
  exact Option.some.inj hread

namespace Journal

variable {σ : Type} {disk : Disk (StateM σ)} {tree : σ → FileTree} {j : Journal} {r : Registry}
  {s s' : σ}

/-- Only in a file with a name can anything be stored. -/
theorem exists_name_of_store (h : j.store disk r s = (.ok (), s')) :
    ∃ name, j.path.fileName? = some name := by
  cases hname : j.path.fileName? with
  | some name => exact ⟨name, rfl⟩
  | none =>
    rw [store_apply, saveFile_of_no_name hname] at h
    split at h <;> cases h

/-- After a store that succeeds, over a disk whose operations may fail, the file holds the text of the
registry, and from the text of a registry exactly that registry is decoded. -/
theorem store_roundTrip (hd : disk.ActsOn tree) (j : Journal) (r : Registry) :
    j.decode r.text.toUTF8 = .ok r ∧ (∀ r' : Registry, r'.text = r.text → r' = r) ∧
      ∀ s s', j.store disk r s = (.ok (), s') →
        j.content? (tree s') = some r.text.toUTF8 ∧ j.loaded (tree s') = .ok r := by
  refine ⟨j.decode_text r, fun r' h => Registry.text_injective h, fun s s' h => ?_⟩
  obtain ⟨name, hname⟩ := exists_name_of_store h
  have hends := store_ends hd hname s r
  rw [h] at hends
  exact ⟨hends.content?_eq hname, hends.loaded hname⟩

/-- A registry that no lines can make: its target has a name that no line can give, stands under
another one, and has legs without paths; its block device exposes a target that is not there. -/
def unusual : Registry where
  targets := .ofList [("\x00\"", ⟨" \\\n\x7f😀", 0xFFFFFFFFFFFFFFFF, some ⟨0, true⟩,
    .raid40 0 [⟨1, [], ⟨"\t"⟩⟩]⟩)]
  mappings := .ofList [("", ⟨"/", false⟩)]

theorem store_roundTrip_unusual :
    ∃ t, store FileTree.disk ⟨⟨"d/j"⟩⟩ unusual (.ofDirectory []) = (.ok (), t) ∧
      content? ⟨⟨"d/j"⟩⟩ t = some unusual.text.toUTF8 ∧ loaded ⟨⟨"d/j"⟩⟩ t = .ok unusual := by
  have hstored : (store FileTree.disk ⟨⟨"d/j"⟩⟩ unusual (.ofDirectory [])).1 = .ok () := by
    decide +kernel
  rcases hstore : store FileTree.disk ⟨⟨"d/j"⟩⟩ unusual (.ofDirectory []) with ⟨outcome, t⟩
  rw [hstore] at hstored
  dsimp only at hstored
  subst hstored
  exact ⟨t, rfl, (store_roundTrip Disk.actsOn_fileTree ⟨⟨"d/j"⟩⟩ unusual).2.2 _ _ hstore⟩

end Journal

end BlockShell
