import KeroseneVault.Release.Mesh

/-!
# Content-addressed blobs

The source of a proposal and the binary it comes to are put in one store: the
source under its own hash, the binary under the hash of the prefixed source. A
later proposal of `x` therefore overwrites the source `lab-rebuild-v1|x`.

* `Proposal`, `proposeAll` — proposals, and the store after them;
* `Proposal.Addressed` — the blob at the candidate's `hs` is its source, and a
  rebuild of it goes through;
* `CollisionFree` — the digest tells the texts of a run apart.

Main results:

* `publish_cases` — what a proposal puts where a source is stored;
* `blobsAddressed_iff` — every candidate of a run stays addressed exactly when
  none has the prefixed source of a later proposal.
-/

namespace KeroseneVault

/-! ## Hashes of texts -/

theorem fromBytes_text_eq_iff {sha256 : List UInt8 → Digest} {a b : List UInt8} :
    (ContentHash.fromBytes sha256 a).text = (ContentHash.fromBytes sha256 b).text ↔
      sha256 a = sha256 b := by
  refine ⟨fun h => Subtype.ext ?_, fun h => congrArg (fun digest : Digest => hexText digest.1) h⟩
  have hA := hexPairs_hexText (sha256 a).1
  have hB := hexPairs_hexText (sha256 b).1
  have hText : hexText (sha256 a).1 = hexText (sha256 b).1 := h
  rw [hText, hB] at hA
  exact (Except.ok.inj hA).symm

/-- A binary is no prefixed source. -/
theorem labBin_ne (hs : ContentHash) (source : List UInt8) :
    textBytes s!"lab-bin|{hs.text}" ≠ labRebuildPrefix ++ source := by
  intro h
  have hText : textBytes s!"lab-bin|{hs.text}" = textBytes "lab-bin|" ++ textBytes hs.text :=
    textBytes_append _ _
  -- the fifth byte tells `b` from `r`
  have hFifth := congrArg (fun bytes : List UInt8 => bytes[4]?) h
  rw [hText, List.getElem?_append_left (by decide +kernel), labRebuildPrefix,
    List.getElem?_append_left (by decide +kernel)] at hFifth
  exact absurd hFifth (by decide +kernel)

theorem ne_prefixed (source : List UInt8) : source ≠ labRebuildPrefix ++ source := by
  intro h
  have hLength := congrArg List.length h
  rw [List.length_append] at hLength
  have hPrefix : 0 < labRebuildPrefix.length := by decide +kernel
  omega

/-! ## Proposals -/

/-- The arguments of `ProposeRelease::execute`, and the clock. -/
structure Proposal where
  releaseId : String
  source : List UInt8
  councilSigs : SortedSet String
  now : U64

section Runs

variable (sha256 : List UInt8 → Digest) (constitution : Constitution)

def Proposal.submit (p : Proposal) (m : ReleaseMeshState) :
    Except DomainError ReleaseCandidate × ReleaseMeshState :=
  ProposeRelease.execute sha256 constitution p.releaseId p.source p.councilSigs p.now m

/-- The store after the proposals. -/
def proposeAll (m : ReleaseMeshState) (ps : List Proposal) : ReleaseMeshState :=
  Runs.run (fun m p => (p.submit sha256 constitution m).2) m ps

def Proposal.Accepted (p : Proposal) (m : ReleaseMeshState) : Prop :=
  ∃ c, (p.submit sha256 constitution m).1 = .ok c

/-- The candidate an accepted proposal enters. -/
def Proposal.candidate (p : Proposal) : ReleaseCandidate :=
  .proposed p.releaseId (.fromBytes sha256 p.source) (labRebuildBinaryHash sha256 p.source)
    constitution.hash p.councilSigs p.now

/-- The blob at the candidate's `hs` is its source, and a rebuild of it records
the candidate's `hb`. -/
def Proposal.Addressed (p : Proposal) (m : ReleaseMeshState) : Prop :=
  ∃ c, m.candidates.lookup p.releaseId = some c ∧ m.blobs.lookup c.hs.text = some p.source ∧
    ∀ vault : NodeId, ∃ d m', RebuildRelease.execute sha256 p.releaseId vault m = (.ok d, m') ∧
      d.rebuilds.lookup vault.text = some c.hb

/-- After each part of the run, every candidate proposed so far is addressed. -/
def BlobsAddressed (policy : ReleasePolicy) (ps : List Proposal) : Prop :=
  ∀ pre p post, pre ++ p :: post <+: ps →
    p.Accepted sha256 constitution (proposeAll sha256 constitution (.new policy) pre) →
    p.Addressed sha256 (proposeAll sha256 constitution (.new policy) (pre ++ p :: post))

/-- No accepted source is the prefixed source of a later proposal. -/
def NoPrefixed (policy : ReleasePolicy) (ps : List Proposal) : Prop :=
  ∀ pre p mid q, pre ++ p :: (mid ++ [q]) <+: ps →
    p.Accepted sha256 constitution (proposeAll sha256 constitution (.new policy) pre) →
    p.source ≠ labRebuildPrefix ++ q.source

/-- The texts whose hashes the proposals put blobs under. -/
def hashedTexts (ps : List Proposal) : List (List UInt8) :=
  ps.flatMap fun p => [p.source, labRebuildPrefix ++ p.source]

/-- The digest tells the texts of the run apart. -/
def CollisionFree (ps : List Proposal) : Prop :=
  ∀ a ∈ hashedTexts ps, ∀ b ∈ hashedTexts ps, sha256 a = sha256 b → a = b

end Runs

/-! ## What a proposal leaves -/

section Steps

variable {sha256 : List UInt8 → Digest} {constitution : Constitution} {m : ReleaseMeshState}
  {p q : Proposal}

/-- What a proposal puts where `hash` is looked up. -/
theorem lookup_publish (sha256 : List UInt8 → Digest) (source : List UInt8)
    (m : ReleaseMeshState) (hash : String) :
    (ProposeRelease.publish sha256 source m).blobs.lookup hash =
      if hash = (labRebuildBinaryHash sha256 source).text then
        some (textBytes s!"lab-bin|{(ContentHash.fromBytes sha256 source).text}")
      else if hash = (ContentHash.fromBytes sha256 source).text then some source
      else m.blobs.lookup hash := by
  unfold ProposeRelease.publish
  dsimp only
  rw [ReleaseMeshState.lookup_putBlob, ReleaseMeshState.lookup_putBlob]

/-- The blobs are published whatever a proposal answers. -/
theorem submit_blobs : (p.submit sha256 constitution m).2.blobs =
    (ProposeRelease.publish sha256 p.source m).blobs := by
  unfold Proposal.submit ProposeRelease.execute
  rcases ProposeRelease.enter_cases constitution p.releaseId (.fromBytes sha256 p.source)
    (labRebuildBinaryHash sha256 p.source) p.councilSigs p.now
    (ProposeRelease.publish sha256 p.source m) with ⟨e, hEq⟩ | ⟨c, -, -, -, -, -, hEq⟩
  · rw [hEq]
  · rw [hEq]
    rfl

theorem submit_accepted (h : p.Accepted sha256 constitution m) :
    (p.submit sha256 constitution m).2.candidates.lookup p.releaseId =
      some (p.candidate sha256 constitution) := by
  obtain ⟨c, hc⟩ := h
  unfold Proposal.submit ProposeRelease.execute at hc ⊢
  rcases ProposeRelease.enter_cases constitution p.releaseId (.fromBytes sha256 p.source)
    (labRebuildBinaryHash sha256 p.source) p.councilSigs p.now
    (ProposeRelease.publish sha256 p.source m) with ⟨e, hEq⟩ | ⟨d, rfl, -, -, -, -, hEq⟩
  · rw [hEq] at hc
    cases hc
  · rw [hEq]
    exact (ReleaseMeshState.lookup_setCandidate _).trans (if_pos rfl)

/-- A candidate is not replaced by a proposal. -/
theorem submit_keeps {id : String} {c : ReleaseCandidate} (h : m.candidates.lookup id = some c) :
    (p.submit sha256 constitution m).2.candidates.lookup id = some c := by
  unfold Proposal.submit ProposeRelease.execute
  rcases ProposeRelease.enter_cases constitution p.releaseId (.fromBytes sha256 p.source)
    (labRebuildBinaryHash sha256 p.source) p.councilSigs p.now
    (ProposeRelease.publish sha256 p.source m) with ⟨e, hEq⟩ | ⟨d, -, -, hNew, -, -, hEq⟩
  · rw [hEq]
    exact h
  · have hId : id ≠ p.releaseId := by
      rintro rfl
      rw [show (ProposeRelease.publish sha256 p.source m).candidates = m.candidates from rfl,
        h] at hNew
      cases hNew
    rw [hEq, ReleaseMeshState.lookup_setCandidate, if_neg hId]
    exact h

theorem proposeAll_keeps {id : String} {c : ReleaseCandidate}
    (h : m.candidates.lookup id = some c) (ps : List Proposal) :
    (proposeAll sha256 constitution m ps).candidates.lookup id = some c :=
  Runs.run_preserves (P := fun m : ReleaseMeshState => m.candidates.lookup id = some c)
    (fun _ _ hm => submit_keeps hm) h ps

/-- A candidate whose source is stored is addressed. -/
theorem addressed_of_stored
    (hCandidate : m.candidates.lookup p.releaseId = some (p.candidate sha256 constitution))
    (hStored : m.blobs.lookup (ContentHash.fromBytes sha256 p.source).text = some p.source) :
    p.Addressed sha256 m := by
  refine ⟨_, hCandidate, hStored, fun vault => ?_⟩
  refine ⟨(p.candidate sha256 constitution).withRebuild vault.text
      (labRebuildBinaryHash sha256 p.source),
    m.setCandidate p.releaseId ((p.candidate sha256 constitution).withRebuild vault.text
      (labRebuildBinaryHash sha256 p.source)), ?_, SortedMap.lookup_insert_self ..⟩
  have hOpen : ¬ (p.candidate sha256 constitution).phase.Closed := by
    rintro (h | h) <;> cases h
  exact RebuildRelease.execute_of hCandidate rfl hOpen hStored rfl rfl

/-- A source that is stored stays, where no proposal puts another text under its hash. -/
theorem submit_stored (hSource : sha256 p.source = sha256 q.source → p.source = q.source)
    (hBinary : sha256 p.source ≠ sha256 (labRebuildPrefix ++ q.source))
    (h : m.blobs.lookup (ContentHash.fromBytes sha256 p.source).text = some p.source) :
    (q.submit sha256 constitution m).2.blobs.lookup
      (ContentHash.fromBytes sha256 p.source).text = some p.source := by
  have hNotBinary : (ContentHash.fromBytes sha256 p.source).text ≠
      (labRebuildBinaryHash sha256 q.source).text :=
    fun hText => hBinary (fromBytes_text_eq_iff.mp hText)
  rw [submit_blobs, lookup_publish, if_neg hNotBinary]
  by_cases hText : (ContentHash.fromBytes sha256 p.source).text =
      (ContentHash.fromBytes sha256 q.source).text
  · rw [if_pos hText, hSource (fromBytes_text_eq_iff.mp hText)]
  · rw [if_neg hText, h]

/-- A proposal stores its own source. -/
theorem submit_stores (hBinary : sha256 p.source ≠ sha256 (labRebuildPrefix ++ p.source)) :
    (p.submit sha256 constitution m).2.blobs.lookup
      (ContentHash.fromBytes sha256 p.source).text = some p.source := by
  have hNotBinary : (ContentHash.fromBytes sha256 p.source).text ≠
      (labRebuildBinaryHash sha256 p.source).text :=
    fun hText => hBinary (fromBytes_text_eq_iff.mp hText)
  rw [submit_blobs, lookup_publish, if_neg hNotBinary, if_pos rfl]

/-- A proposal of what a source prefixes overwrites the source. -/
theorem submit_overwrites (h : p.source = labRebuildPrefix ++ q.source) :
    (q.submit sha256 constitution m).2.blobs.lookup
      (ContentHash.fromBytes sha256 p.source).text ≠ some p.source := by
  rw [submit_blobs, lookup_publish, h]
  show (if (labRebuildBinaryHash sha256 q.source).text = _ then _ else _) ≠ _
  rw [if_pos rfl]
  exact fun hEq => labBin_ne _ q.source (Option.some.inj hEq)

end Steps

/-! ## Runs of proposals -/

section Runs

variable {sha256 : List UInt8 → Digest} {constitution : Constitution} {policy : ReleasePolicy}
  {ps : List Proposal}

theorem source_mem_hashedTexts {p : Proposal} (h : p ∈ ps) : p.source ∈ hashedTexts ps :=
  List.mem_flatMap.mpr ⟨p, h, List.mem_cons_self ..⟩

theorem prefixed_mem_hashedTexts {p : Proposal} (h : p ∈ ps) :
    labRebuildPrefix ++ p.source ∈ hashedTexts ps :=
  List.mem_flatMap.mpr ⟨p, h, List.mem_cons_of_mem _ (List.mem_cons_self ..)⟩

/-- A source stays stored along proposals it does not prefix. -/
theorem proposeAll_stored (hFree : CollisionFree sha256 ps) {p : Proposal} (hp : p ∈ ps)
    {m : ReleaseMeshState}
    (h : m.blobs.lookup (ContentHash.fromBytes sha256 p.source).text = some p.source)
    {post : List Proposal} (hPost : ∀ q ∈ post, q ∈ ps)
    (hNe : ∀ q ∈ post, p.source ≠ labRebuildPrefix ++ q.source) :
    (proposeAll sha256 constitution m post).blobs.lookup
      (ContentHash.fromBytes sha256 p.source).text = some p.source := by
  induction post generalizing m with
  | nil => exact h
  | cons q rest ih =>
    have hq : q ∈ ps := hPost q (List.mem_cons_self ..)
    have hSource := hFree _ (source_mem_hashedTexts hp) _ (source_mem_hashedTexts hq)
    have hBinary : sha256 p.source ≠ sha256 (labRebuildPrefix ++ q.source) := fun hEq =>
      hNe q (List.mem_cons_self ..)
        (hFree _ (source_mem_hashedTexts hp) _ (prefixed_mem_hashedTexts hq) hEq)
    exact ih (submit_stored hSource hBinary h)
      (fun r hr => hPost r (List.mem_cons_of_mem _ hr))
      (fun r hr => hNe r (List.mem_cons_of_mem _ hr))

/--
**Content addressing.** Where the digest tells the texts of the run apart, every
candidate stays addressed exactly when none has the prefixed source of a later
proposal.
-/
theorem blobsAddressed_iff (sha256 : List UInt8 → Digest) (constitution : Constitution)
    (policy : ReleasePolicy) (ps : List Proposal) (hFree : CollisionFree sha256 ps) :
    BlobsAddressed sha256 constitution policy ps ↔ NoPrefixed sha256 constitution policy ps := by
  constructor
  · intro hAddressed pre p mid q hPart hAccepted hSource
    obtain ⟨c, hLookup, hBlob, -⟩ := hAddressed pre p (mid ++ [q]) hPart hAccepted
    -- the candidate is still the one the proposal entered
    have hSplit : proposeAll sha256 constitution (.new policy) (pre ++ p :: (mid ++ [q])) =
        (q.submit sha256 constitution (proposeAll sha256 constitution
          (p.submit sha256 constitution (proposeAll sha256 constitution (.new policy) pre)).2
          mid)).2 := by
      unfold proposeAll
      rw [Runs.run_append, Runs.run_cons, Runs.run_append]
      rfl
    have hKept : (q.submit sha256 constitution (proposeAll sha256 constitution
          (p.submit sha256 constitution (proposeAll sha256 constitution (.new policy) pre)).2
          mid)).2.candidates.lookup p.releaseId = some (p.candidate sha256 constitution) :=
      submit_keeps (proposeAll_keeps (submit_accepted hAccepted) mid)
    rw [hSplit, hKept] at hLookup
    obtain rfl := Option.some.inj hLookup
    rw [hSplit] at hBlob
    exact submit_overwrites hSource hBlob
  · intro hNone pre p post hPart hAccepted
    have hMem : ∀ q ∈ pre ++ p :: post, q ∈ ps := fun q hq => hPart.subset hq
    have hp : p ∈ ps := hMem p (List.mem_append_right _ (List.mem_cons_self ..))
    have hBinary : sha256 p.source ≠ sha256 (labRebuildPrefix ++ p.source) := fun hEq =>
      ne_prefixed p.source
        (hFree _ (source_mem_hashedTexts hp) _ (prefixed_mem_hashedTexts hp) hEq)
    have hNe : ∀ q ∈ post, p.source ≠ labRebuildPrefix ++ q.source := by
      intro q hq
      obtain ⟨mid, rest, rfl⟩ := List.append_of_mem hq
      refine hNone pre p mid q (List.IsPrefix.trans ⟨rest, ?_⟩ hPart) hAccepted
      simp
    have hSplit : proposeAll sha256 constitution (.new policy) (pre ++ p :: post) =
        proposeAll sha256 constitution
          (p.submit sha256 constitution (proposeAll sha256 constitution (.new policy) pre)).2
          post := by
      unfold proposeAll
      rw [Runs.run_append, Runs.run_cons]
    rw [hSplit]
    refine addressed_of_stored (proposeAll_keeps (submit_accepted hAccepted) post) ?_
    refine proposeAll_stored hFree hp (submit_stores hBinary) (fun q hq => ?_) hNe
    exact hMem q (List.mem_append_right _ (List.mem_cons_of_mem _ hq))

end Runs

/-! ### A source that is a prefixed source -/

def soloProposal (releaseId source : String) : Proposal :=
  { releaseId, source := textBytes source, councilSigs := .ofKeys ["alice"], now := toU64 0 }

def plainProposals : List Proposal := [soloProposal "r1" "one", soloProposal "r2" "two"]

theorem blobsAddressed_plain :
    BlobsAddressed foldDigest soloConstitution .solo plainProposals ↔
      NoPrefixed foldDigest soloConstitution .solo plainProposals :=
  blobsAddressed_iff foldDigest soloConstitution .solo plainProposals
    (by unfold CollisionFree; decide +kernel)

/-- `lab-rebuild-v1|x`, and then `x`. -/
def prefixedProposals : List Proposal :=
  [soloProposal "r1" "lab-rebuild-v1|x", soloProposal "r2" "x"]

theorem blobsAddressed_fails : CollisionFree foldDigest prefixedProposals ∧
    ¬ BlobsAddressed foldDigest soloConstitution .solo prefixedProposals := by
  refine ⟨by unfold CollisionFree; decide +kernel, fun h => ?_⟩
  obtain ⟨c, hLookup, hBlob, -⟩ := h [] (soloProposal "r1" "lab-rebuild-v1|x")
    [soloProposal "r2" "x"] (List.prefix_refl _) ⟨_, rfl⟩
  have hStored : (((proposeAll foldDigest soloConstitution (.new .solo)
      prefixedProposals).candidates.lookup "r1").bind fun c =>
      (proposeAll foldDigest soloConstitution (.new .solo) prefixedProposals).blobs.lookup
        c.hs.text) = some (textBytes "lab-rebuild-v1|x") := by
    rw [show (proposeAll foldDigest soloConstitution (.new .solo)
      prefixedProposals).candidates.lookup "r1" = some c from hLookup]
    exact hBlob
  exact absurd hStored (by decide +kernel)

end KeroseneVault
