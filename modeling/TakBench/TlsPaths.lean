import TakBench.Library.Replacement
import TakBench.Config

/-!
# The TLS files of the participants

A pair of templates gives each participant a certificate and a key. The name of the participant
stands in the place of each placeholder. Names are checked before, so that the files of two
participants differ, and the files of each lie where the templates say.

## Main results

* `TlsConfig.forParticipant_separates`: distinct files, in the directories of the templates
-/

namespace TakBench

variable {id id' template : String} {tls resolved : TlsConfig}

/-! ## Names -/

/-- A name that is safe in a path is one component of it, and names no directory. -/
theorem components_of_isSafe (hsafe : isSafeParticipantId id = true) :
    '/' ∉ id.toList ∧ id.toList ≠ [] ∧ id.toList ≠ ['.'] ∧ id.toList ≠ ['.', '.'] := by
  simp only [isSafeParticipantId, Bool.and_eq_true, List.all_eq_true, decide_eq_true_eq] at hsafe
  obtain ⟨⟨⟨hempty, hchars⟩, hdot⟩, hdots⟩ := hsafe
  refine ⟨fun hslash => absurd (hchars '/' hslash) (by decide), fun h => hempty ?_,
    fun h => hdot ?_, fun h => hdots ?_⟩
  · exact String.toList_inj.mp h
  · exact String.toList_inj.mp h
  · exact String.toList_inj.mp h

/-! ## Templates -/

theorem replaceText_skip (pattern text : List Char) (skip : ℕ) (value : List Char) :
    replaceText pattern text skip value = replaceText pattern text 0 (value.drop skip) := by
  induction value generalizing skip with
  | nil => cases skip <;> rfl
  | cons c value ih =>
    cases skip with
    | zero => rfl
    | succ skip => exact ih skip

/-- `str::replace` replaces each occurrence. -/
theorem replaces_replaceText {pattern : List Char} (hpattern : pattern ≠ []) (text : List Char)
    (value : List Char) : Replaces pattern text value (replaceText pattern text 0 value) := by
  induction hlength : value.length using Nat.strong_induction_on generalizing value with
  | _ n ih =>
    cases value with
    | nil => exact .nil
    | cons c value =>
      rw [replaceText]
      split
      · next hpre =>
        obtain ⟨rest, hrest⟩ := hpre
        obtain ⟨d, pattern', rfl⟩ := List.exists_cons_of_ne_nil hpattern
        obtain ⟨rfl, rfl⟩ := List.cons.inj (List.cons_append ▸ hrest)
        have hshorter : rest.length < n := by
          rw [← hlength, List.length_cons]
          exact Nat.lt_succ_of_le (List.suffix_append pattern' rest).length_le
        rw [replaceText_skip, List.length_cons, Nat.add_sub_cancel, List.drop_left]
        exact .replace (ih _ hshorter rest rfl)
      · next hpre =>
        have hshorter : value.length < n := by
          rw [← hlength, List.length_cons]
          exact Nat.lt_succ_self _
        exact .keep c hpre (ih _ hshorter value rfl)

theorem replaces_fillTemplate (template id : String) :
    Replaces placeholder id.toList template.toList (fillTemplate template id).toList := by
  rw [fillTemplate, String.toList_ofList]
  exact replaces_replaceText (by decide) _ _

/-- Two names give two files. -/
theorem fillTemplate_injective (hcontains : containsPlaceholder template = true)
    (h : fillTemplate template id = fillTemplate template id') : id = id' := by
  have hid := replaces_fillTemplate template id
  rw [h] at hid
  exact String.toList_inj.mp (hid.injective (by decide) (of_decide_eq_true hcontains)
    (replaces_fillTemplate template id'))

/-- A component of a template and that of a file: the same, or a placeholder stood there, and the
component is neither empty nor `.` or `..`. -/
def SafeComponent (component resolved : List Char) : Prop :=
  if placeholder <:+: component then resolved ≠ [] ∧ resolved ≠ ['.'] ∧ resolved ≠ ['.', '.']
  else resolved = component

/-- The file has the components of the template, but for those with a placeholder. -/
def SameDirectories (template path : String) : Prop :=
  List.Forall₂ SafeComponent (template.toList.splitOn '/') (path.toList.splitOn '/')

instance : DecidableRel SafeComponent := fun _ _ => inferInstanceAs (Decidable (ite _ _ _))

/-- The name stands in the component, and only a part of itself could stand in `.` or `..`. -/
theorem safeComponent_of_replaces (hsafe : isSafeParticipantId id = true)
    {component resolved : List Char} (h : Replaces placeholder id.toList component resolved) :
    SafeComponent component resolved := by
  obtain ⟨-, hempty, hdot, hdots⟩ := components_of_isSafe hsafe
  rw [SafeComponent]
  split
  · next hoccurs =>
    have hinfix := h.text_infix (by decide) hoccurs
    refine ⟨?_, ?_, ?_⟩
    · rintro rfl
      exact hempty (List.infix_nil.mp hinfix)
    · rintro rfl
      simp only [List.infix_cons_iff, List.prefix_cons_iff, List.prefix_nil, List.infix_nil]
        at hinfix
      grind
    · rintro rfl
      simp only [List.infix_cons_iff, List.prefix_cons_iff, List.prefix_nil, List.infix_nil]
        at hinfix
      grind
  · next hnone => exact h.eq_of_not_infix hnone

theorem sameDirectories_fillTemplate (template : String) (hsafe : isSafeParticipantId id = true) :
    SameDirectories template (fillTemplate template id) :=
  ((replaces_fillTemplate template id).splitOn (by decide) (components_of_isSafe hsafe).1).imp
    fun _ _ => safeComponent_of_replaces hsafe

/-! ## Participants -/

namespace TlsConfig

/-- What a pair of templates is resolved to. -/
theorem forParticipant_eq_ok {cert key : String} (hcert : tls.clientCertTemplate = some cert)
    (hkey : tls.clientKeyTemplate = some key) (h : tls.forParticipant id = .ok resolved) :
    containsPlaceholder cert = true ∧ containsPlaceholder key = true ∧
      isSafeParticipantId id = true ∧
      resolved = { tls with
        clientCert := some (fillTemplate cert id)
        clientKey := some (fillTemplate key id)
        clientCertTemplate := none
        clientKeyTemplate := none } := by
  rw [forParticipant, hcert, hkey] at h
  simp only [] at h
  split at h
  · cases h
  · next hchecks =>
    simp only [Bool.or_eq_true, Bool.not_eq_true', not_or, Bool.not_eq_false] at hchecks
    exact ⟨hchecks.1.1.2, hchecks.1.2, hchecks.2, (Except.ok.inj h).symm⟩

/-- **Every participant has files of its own, in the directories of the templates**, and no template
is left; nothing else changes. -/
theorem forParticipant_separates {cert key : String} (hcert : tls.clientCertTemplate = some cert)
    (hkey : tls.clientKeyTemplate = some key) (h : tls.forParticipant id = .ok resolved) :
    (∃ certPath keyPath, SameDirectories cert certPath ∧ SameDirectories key keyPath ∧
      resolved = { tls with
        clientCert := some certPath
        clientKey := some keyPath
        clientCertTemplate := none
        clientKeyTemplate := none }) ∧
    ∀ id' resolved', id' ≠ id → tls.forParticipant id' = .ok resolved' →
      resolved'.clientCert ≠ resolved.clientCert ∧ resolved'.clientKey ≠ resolved.clientKey := by
  obtain ⟨hcertHolds, hkeyHolds, hsafe, rfl⟩ := forParticipant_eq_ok hcert hkey h
  refine ⟨⟨_, _, sameDirectories_fillTemplate cert hsafe, sameDirectories_fillTemplate key hsafe,
    rfl⟩, fun id' resolved' hid h' => ?_⟩
  obtain ⟨-, -, -, rfl⟩ := forParticipant_eq_ok hcert hkey h'
  refine ⟨fun heq => hid ?_, fun heq => hid ?_⟩
  · exact fillTemplate_injective hcertHolds (Option.some.inj heq)
  · exact fillTemplate_injective hkeyHolds (Option.some.inj heq)

/-- Two participants in one directory. -/
theorem forParticipant_separates_pair :
    let tls : TlsConfig :=
      { clientCertTemplate := some "certs/\x7bparticipant_id\x7d.pem"
        clientKeyTemplate := some "keys/\x7bparticipant_id\x7d.key" }
    ∃ alice bob, tls.forParticipant "alice" = .ok alice ∧ tls.forParticipant "bob" = .ok bob ∧
      bob.clientCert ≠ alice.clientCert ∧ bob.clientKey ≠ alice.clientKey := by
  intro tls
  have hid : "bob" ≠ "alice" := by decide
  have halice : tls.forParticipant "alice" = .ok _ := rfl
  have hbob : tls.forParticipant "bob" = .ok _ := rfl
  exact ⟨_, _, halice, hbob, (forParticipant_separates rfl rfl halice).2 "bob" _ hid hbob⟩

end TlsConfig

end TakBench
