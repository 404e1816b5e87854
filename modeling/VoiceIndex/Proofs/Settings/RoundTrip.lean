import VoiceIndex.Proofs.Disk.Program
import VoiceIndex.Proofs.Json.Record
import VoiceIndex.Settings

/-!
# Settings read back

Settings are read back from their text, whatever texts and numbers they hold (`ofText_toText`).
Writing refuses none of them, and reading refuses those that make no sense. So a file in which
settings were saved gives them back or tells what is wrong with them, and no file gives settings
that make no sense (`survive_saving`).
-/

namespace VoiceIndex.Settings

open Json Fields DiskAccess

variable {s : Settings} {p : Path} {d d' : Disk}

@[simp] theorem orNull?_path? (p : Option Path) :
    orNull? path? (ofText? (p.map (·.text))) = some p := by
  cases p <;> rfl

/-! ## The text -/

theorem ofJson?_toJson (s : Settings) : ofJson? s.toJson = some s := by
  unfold ofJson? toJson
  rw [of?_record]
  · simp [withDefault, List.lookup_cons]
  · decide
  · exact List.Sublist.refl fieldNames

theorem isIntegral_toJson (s : Settings) : s.toJson.IsIntegral :=
  isIntegral_record (by simp)

/-- **Settings are read back from their text.** -/
theorem ofText_toText (s : Settings) : ofText s.toText = .ok s :=
  decode_pretty s.ofJson?_toJson s.isIntegral_toJson

/-! ## What makes sense -/

/-- Settings that make sense. -/
structure IsValid (s : Settings) : Prop where
  one_le_maxResults : 1 ≤ s.maxResults
  searchDebounceMs_le : s.searchDebounceMs ≤ 10000

instance : Decidable s.IsValid :=
  decidable_of_iff (1 ≤ s.maxResults ∧ s.searchDebounceMs ≤ 10000)
    ⟨fun h => ⟨h.1, h.2⟩, fun h => ⟨h.1, h.2⟩⟩

theorem isValid_default : IsValid {} := by decide

/-- The first fault in settings that make no sense is the one that is told. -/
theorem validated_eq (s : Settings) :
    s.validated = if s.IsValid then .ok s else
      .error (.config (if s.maxResults = 0 then .noResults else .debounceTooLong 10000)) := by
  have hresults : s.maxResults = 0 ↔ ¬ 1 ≤ s.maxResults := by
    rw [UInt64.le_iff_toNat_le, ← UInt64.toNat_inj]
    simp
  have hwait : maxDebounceMs < s.searchDebounceMs.toNat ↔ ¬ s.searchDebounceMs ≤ 10000 := by
    rw [UInt64.le_iff_toNat_le, Nat.not_le]
    rfl
  unfold validated fault?
  simp only [hresults, hwait]
  by_cases hmax : 1 ≤ s.maxResults
  · by_cases hle : s.searchDebounceMs ≤ 10000
    · have hvalid : s.IsValid := ⟨hmax, hle⟩
      simp [hmax, hle, hvalid]
    · have hnot : ¬ s.IsValid := fun h => hle h.searchDebounceMs_le
      simp [hmax, hle, hnot, maxDebounceMs]
  · have hnot : ¬ s.IsValid := fun h => hmax h.one_le_maxResults
    simp [hmax, hnot]

theorem isValid_of_validated {read : Settings} (h : read.validated = .ok s) : s.IsValid := by
  rw [validated_eq] at h
  split_ifs at h with hvalid
  cases h
  exact hvalid

/-! ## The file -/

/-- After settings were saved, the file holds their text. -/
theorem bytesAt_of_save (h : (s.save p : StateM Disk _).run d = (.ok (), d')) :
    d'.bytesAt p = .ok s.toText.toUTF8 := by
  unfold save at h
  rcases hroom : (makeRoom p : StateM Disk _).run d with ⟨fault | ⟨⟩, d₁⟩
  · rw [Disk.run_bind_of hroom] at h
    cases h
  rcases hwrite : (writeText p s.toText : StateM Disk _).run d₁ with ⟨fault | ⟨⟩, d₂⟩
  · rw [Disk.run_bind_of hroom, Disk.run_bind_of hwrite] at h
    cases h
  rw [Disk.run_bind_of hroom, Disk.run_bind_of hwrite] at h
  obtain rfl : d₂ = d' := congrArg Prod.snd h
  rw [Disk.run_writeText] at hwrite
  have hfound := Disk.bytesAt_of_writeBytes_ok (congrArg Prod.fst hwrite)
  rwa [hwrite] at hfound

theorem run_load_of_bytesAt {text : String} (h : d.bytesAt p = .ok text.toUTF8)
    (htext : ofText text = .ok s) : (load p : StateM Disk _).run d = (s.validated, d) := by
  have hthere : (isThere p : StateM Disk _).run d = (true, d) := by
    rw [Disk.run_isThere, Disk.kindAt_of_bytesAt h]
    rfl
  have hread : (readText p : StateM Disk _).run d = (.ok text, d) := by
    rw [Disk.run_readText, Disk.textAt_eq_ok_iff.2 h]
  unfold load
  rw [Disk.run_bind_of hthere, if_pos rfl, Disk.run_bind_of hread]
  simp only [htext]
  rfl

/-- No file gives settings that make no sense, wherever files are kept. -/
theorem isValid_of_load {σ : Type} [DiskAccess (StateM σ)] {w : σ}
    (h : ((load p : StateM σ _).run w).1 = .ok s) : s.IsValid := by
  unfold load at h
  rcases hthere : (isThere p : StateM σ _).run w with ⟨_ | _, w₁⟩
  · rw [Disk.run_bind_of hthere] at h
    cases h
    exact isValid_default
  rw [Disk.run_bind_of hthere, if_pos rfl] at h
  rcases hread : (readText p : StateM σ _).run w₁ with ⟨fault | text, w₂⟩
  · rw [Disk.run_bind_of hread] at h
    cases h
  rw [Disk.run_bind_of hread] at h
  cases htext : ofText text with
  | error fault =>
    simp only [htext] at h
    cases h
  | ok read =>
    simp only [htext] at h
    exact isValid_of_validated h

/-! ## Main result -/

/-- **Settings survive saving.** Whatever they hold, a file in which they were saved gives them back
if they make sense, and otherwise what is wrong with them. No file at all, wherever files are kept,
gives settings that make no sense. -/
theorem survive_saving :
    (∀ (s : Settings) (p : Path) (d d' : Disk),
      (s.save p : StateM Disk _).run d = (.ok (), d') →
        (s.IsValid → (load p : StateM Disk _).run d' = (.ok s, d')) ∧
        (¬ s.IsValid → (load p : StateM Disk _).run d' =
          (.error (.config
            (if s.maxResults = 0 then .noResults else .debounceTooLong 10000)), d'))) ∧
    ∀ (σ : Type) [DiskAccess (StateM σ)] (p : Path) (w : σ) (s : Settings),
      ((load p : StateM σ _).run w).1 = .ok s → 1 ≤ s.maxResults ∧ s.searchDebounceMs ≤ 10000 := by
  refine ⟨fun s p d d' hsave => ?_, fun σ _ p w s hload => ?_⟩
  · have hload : (load p : StateM Disk _).run d' = (s.validated, d') :=
      run_load_of_bytesAt (bytesAt_of_save hsave) s.ofText_toText
    rw [hload, validated_eq]
    exact ⟨fun hvalid => by rw [if_pos hvalid], fun hnot => by rw [if_neg hnot]⟩
  · have hvalid : s.IsValid := isValid_of_load hload
    exact ⟨hvalid.one_le_maxResults, hvalid.searchDebounceMs_le⟩

/-- Texts that need escapes, an empty path and the greatest number. -/
def odd : Settings where
  userFolderPath := some ⟨"C:\\voice \"é\"\n"⟩
  enableAutoIndexing := false
  searchDebounceMs := 10000
  maxResults := 18446744073709551615
  preferredApplications := ["", "\t\x01"]
  dataPath := some ⟨""⟩

/-- Settings under which nothing is found. -/
def idle : Settings := { odd with searchDebounceMs := 10001, maxResults := 0 }

/-- Both are saved one after the other, in a folder that is made for the file. -/
theorem survive_saving_nested :
    let p : Path := ⟨"nested/settings.json"⟩
    ∃ d₁ d₂, (odd.save p : StateM Disk _).run { top := .folder [] } = (.ok (), d₁) ∧
      (idle.save p : StateM Disk _).run d₁ = (.ok (), d₂) ∧
      (load p : StateM Disk _).run d₁ = (.ok odd, d₁) ∧
      (load p : StateM Disk _).run d₂ = (.error (.config .noResults), d₂) ∧
      1 ≤ odd.maxResults ∧ odd.searchDebounceMs ≤ 10000 := by
  intro p
  let d : Disk := { top := .folder [] }
  have hodd : ((odd.save p : StateM Disk _).run d).1 = .ok () := by decide +kernel
  have hidle : ((idle.save p : StateM Disk _).run ((odd.save p : StateM Disk _).run d).2).1 =
      .ok () := by decide +kernel
  have hback := (survive_saving.1 odd p d _ (Prod.ext hodd rfl)).1 (by decide)
  exact ⟨_, _, Prod.ext hodd rfl, Prod.ext hidle rfl, hback,
    (survive_saving.1 idle p _ _ (Prod.ext hidle rfl)).2 (by decide),
    survive_saving.2 Disk p _ odd (congrArg Prod.fst hback)⟩

end VoiceIndex.Settings
