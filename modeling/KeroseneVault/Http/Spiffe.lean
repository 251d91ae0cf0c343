import KeroseneVault.Http.Principal
import KeroseneVault.Lib.Framing

/-!
# The shapes of a SPIFFE principal

`parse_spiffe_principal` names three shapes of a URI. It splits what follows the
scheme at the slashes, leaves the first segment unread, and reads no further than
the kind of the workload and, for a vault, the node. So an empty trust domain
passes, and so do segments after the last one of a shape.

* `SpiffeShape` — the shapes that the parser names;
* `spiffeSegments` — the segments that it sees;
* `Accepted` — the segments that it takes;
* `OffShape` — those of them that are of no shape;
* `ExactlyParsed` — the parser takes a URI where it has a shape, and as that shape says;
* `VaultNamed` — who a vault principal may be.

Main results:

* `parse_ok_iff`, `spiffeShape_iff` — what is parsed and what has a shape, segment by
  segment;
* `exactlyParsed_iff` — a URI is parsed as it should be unless it is off the shapes;
* `vaultNamed` — a vault principal is known, and named by its certificate.
-/

namespace KeroseneVault

/-! ## Shapes and segments -/

/-- The documented shapes, with the role and the node of each. -/
inductive SpiffeShape : String → MeshRole → Option String → Prop
  | kfe {td : String} (hTd : td ≠ "") (hOne : '/' ∉ td.toList) :
    SpiffeShape ("spiffe://" ++ td ++ "/kfe") .kfe (some "kfe")
  | vault {td node : String} (hTd : td ≠ "") (hOne : '/' ∉ td.toList) (hNode : node ≠ "")
    (hLast : '/' ∉ node.toList) (hServer : node ≠ "server") :
    SpiffeShape ("spiffe://" ++ td ++ "/vault/" ++ node) .vault (some node)
  | server {td : String} (hTd : td ≠ "") (hOne : '/' ∉ td.toList) :
    SpiffeShape ("spiffe://" ++ td ++ "/vault/server") .vault none

/-- What stands between the slashes after the scheme. -/
def spiffeSegments (uri : String) : List String :=
  ((uri.toList.drop "spiffe://".length).splitOn '/').map String.ofList

/-- The segments that the parser takes, and what it reads in them. -/
inductive Accepted : List String → MeshRole → Option String → Prop
  | kfe (td : String) (rest : List String) : Accepted (td :: "kfe" :: rest) .kfe (some "kfe")
  | vault (td node : String) (rest : List String) (hNode : node ≠ "") (hServer : node ≠ "server") :
    Accepted (td :: "vault" :: node :: rest) .vault (some node)
  | server (td : String) (rest : List String) :
    Accepted (td :: "vault" :: "server" :: rest) .vault none

/-- Segments that are taken, without a trust domain or with more of them than a shape has. -/
def OffShape : List String → Prop
  | td :: "kfe" :: rest => td = "" ∨ rest ≠ []
  | td :: "vault" :: leaf :: rest => leaf ≠ "" ∧ (td = "" ∨ rest ≠ [])
  | _ => False

instance (segs : List String) : Decidable (OffShape segs) := by
  unfold OffShape
  split <;> infer_instance

/-- The parser takes a URI exactly where it has a shape, with the role and the node of it. -/
def ExactlyParsed (uri : String) : Prop := ∀ role node,
  parseSpiffePrincipal uri = .ok (role, node) ↔ SpiffeShape (strTrim uri) role node

section Segments

variable {uri s : String} {segs : List String} {role : MeshRole} {node : Option String}

/-- The segments after the scheme are those without slashes that the text is joined of. -/
theorem spiffeSegments_eq_iff : startsWith s "spiffe://" = true ∧ spiffeSegments s = segs ↔
    segs ≠ [] ∧ (∀ seg ∈ segs, '/' ∉ seg.toList) ∧
      s.toList = "spiffe://".toList ++ List.intercalate ['/'] (segs.map String.toList) := by
  have hSegs : spiffeSegments s = segs ↔
      (s.toList.drop "spiffe://".length).splitOn '/' = segs.map String.toList := by
    unfold spiffeSegments
    -- a text is split into segments just where it is their join
    constructor
    · rintro rfl
      rw [List.map_map]
      simp
    · intro hSplit
      rw [hSplit, List.map_map]
      simp
  have hStarts : startsWith s "spiffe://" = true ↔
      s.toList = "spiffe://".toList ++ s.toList.drop "spiffe://".length := by
    unfold startsWith
    rw [List.isPrefixOf_iff_prefix, List.prefix_iff_eq_append, String.length_toList]
    exact eq_comm
  rw [hSegs, Framing.splitOn_eq_iff, List.map_eq_nil_iff.ne, List.forall_mem_map]
  constructor
  · rintro ⟨hScheme, hNe, hPlain, hJoined⟩
    exact ⟨hNe, hPlain, by rw [hJoined]; exact hStarts.mp hScheme⟩
  · rintro ⟨hNe, hPlain, hText⟩
    have hDrop : s.toList.drop "spiffe://".length =
        List.intercalate ['/'] (segs.map String.toList) := by
      rw [hText, ← String.length_toList, List.drop_left]
    exact ⟨hStarts.mpr (by rw [hDrop]; exact hText), hNe, hPlain, hDrop.symm⟩

/-- What is taken depends on the kind and, for a vault, on the node. -/
theorem accepted_iff : Accepted segs role node ↔
    (segs.getD 1 "" = "kfe" ∧ role = .kfe ∧ node = some "kfe") ∨
      (segs.getD 1 "" = "vault" ∧ segs.getD 2 "" ≠ "" ∧ role = .vault ∧
        node = if segs.getD 2 "" = "server" then none else some (segs.getD 2 "")) := by
  -- the three forms of an accepted list, against the parser's two comparisons
  constructor
  · rintro (⟨td, rest⟩ | ⟨td, leaf, rest, hLeaf, hServer⟩ | ⟨td, rest⟩)
    · exact .inl ⟨rfl, rfl, rfl⟩
    · exact .inr ⟨rfl, hLeaf, rfl, (if_neg hServer).symm⟩
    · exact .inr ⟨rfl, by simp, rfl, rfl⟩
  · -- a missing segment reads as the empty one, which is neither a kind nor a node
    rcases segs with _ | ⟨td, _ | ⟨kind, rest⟩⟩
    · simp
    · simp
    · rintro (⟨hKind, rfl, rfl⟩ | ⟨hKind, hLeaf, rfl, rfl⟩)
      · obtain rfl : kind = "kfe" := hKind
        exact .kfe td rest
      · obtain rfl : kind = "vault" := hKind
        cases rest with
        | nil => exact absurd rfl hLeaf
        | cons leaf rest =>
          show Accepted (td :: "vault" :: leaf :: rest) .vault (if leaf = "server" then _ else _)
          by_cases hServer : leaf = "server"
          · rw [if_pos hServer, hServer]
            exact .server td rest
          · rw [if_neg hServer]
            exact .vault td leaf rest hLeaf hServer

/-- A URI is parsed where its scheme is right and its segments are taken. -/
theorem parse_ok_iff : parseSpiffePrincipal uri = .ok (role, node) ↔
    startsWith (strTrim uri) "spiffe://" = true ∧
      Accepted (spiffeSegments (strTrim uri)) role node := by
  unfold parseSpiffePrincipal
  generalize strTrim uri = s
  have hSegment (i : Nat) :
      String.ofList (((s.toList.drop "spiffe://".length).splitOn '/').getD i []) =
        (spiffeSegments s).getD i "" := by
    unfold spiffeSegments
    rw [List.getD_eq_getElem?_getD, List.getD_eq_getElem?_getD, List.getElem?_map]
    exact (Option.getD_map String.ofList [] _).symm
  have hRead {role' : MeshRole} {node' : Option String} :
      Except.ok (role', node') = (.ok (role, node) : Except DomainError _) ↔
        role = role' ∧ node = node' := by
    rw [Except.ok.injEq, Prod.mk.injEq, eq_comm, @eq_comm _ node']
  dsimp only
  rw [hSegment, hSegment, accepted_iff]
  generalize (spiffeSegments s).getD 1 "" = kind
  generalize (spiffeSegments s).getD 2 "" = leaf
  cases startsWith s "spiffe://" with
  | false => simp
  | true =>
    rw [if_neg (by simp), eq_self_iff_true, true_and]
    -- the kinds are told apart as the parser does
    split
    · simp [hRead]
    · by_cases hLeaf : leaf = ""
      · simp [hLeaf]
      · by_cases hServer : leaf = "server"
        · simp [hServer, hRead]
        · simp [hLeaf, hServer, hRead]
    · rename_i hKfe hVault
      constructor
      · intro h
        cases h
      · rintro (⟨hKind, -⟩ | ⟨hKind, -⟩)
        · exact absurd hKind hKfe
        · exact absurd hKind hVault

/-- A URI has a shape where the parser takes its segments and they are not off the shapes. -/
theorem spiffeShape_iff : SpiffeShape s role node ↔ startsWith s "spiffe://" = true ∧
    Accepted (spiffeSegments s) role node ∧ ¬ OffShape (spiffeSegments s) := by
  constructor
  · -- each shape is joined of its own segments
    rintro (⟨hTd, hOne⟩ | ⟨hTd, hOne, hNode, hLast, hServer⟩ | ⟨hTd, hOne⟩)
    · rename_i td
      obtain ⟨hScheme, hSegs⟩ := (@spiffeSegments_eq_iff ("spiffe://" ++ td ++ "/kfe")
        [td, "kfe"]).mpr ⟨List.cons_ne_nil _ _, by simp [hOne], by simp⟩
      rw [hSegs]
      refine ⟨hScheme, .kfe td [], ?_⟩
      show ¬ (td = "" ∨ [] ≠ [])
      simp [hTd]
    · rename_i td node
      obtain ⟨hScheme, hSegs⟩ := (@spiffeSegments_eq_iff ("spiffe://" ++ td ++ "/vault/" ++ node)
        [td, "vault", node]).mpr ⟨List.cons_ne_nil _ _, by simp [hOne, hLast], by simp⟩
      rw [hSegs]
      refine ⟨hScheme, .vault td node [] hNode hServer, ?_⟩
      show ¬ (node ≠ "" ∧ (td = "" ∨ [] ≠ []))
      simp [hTd]
    · rename_i td
      obtain ⟨hScheme, hSegs⟩ := (@spiffeSegments_eq_iff ("spiffe://" ++ td ++ "/vault/server")
        [td, "vault", "server"]).mpr ⟨List.cons_ne_nil _ _, by simp [hOne], by simp⟩
      rw [hSegs]
      refine ⟨hScheme, .server td [], ?_⟩
      show ¬ ("server" ≠ "" ∧ (td = "" ∨ [] ≠ []))
      simp [hTd]
  · rintro ⟨hScheme, hAccepted, hOn⟩
    generalize hSegs : spiffeSegments s = segs at hAccepted hOn
    obtain ⟨-, hPlain, hText⟩ := spiffeSegments_eq_iff.mp ⟨hScheme, hSegs⟩
    have hOne : ∀ td rest, segs = td :: rest → '/' ∉ td.toList := by
      rintro td rest rfl
      exact hPlain td List.mem_cons_self
    -- nothing is left after the last segment that counts, and the text is what joins them
    cases hAccepted with
    | kfe td rest =>
      obtain ⟨hTd, hRest⟩ := not_or.mp (show ¬ (td = "" ∨ rest ≠ []) from hOn)
      obtain rfl := not_not.mp hRest
      obtain rfl : s = "spiffe://" ++ td ++ "/kfe" := String.toList_inj.mp (by rw [hText]; simp)
      exact .kfe hTd (hOne td _ rfl)
    | vault td node rest hNode hServer =>
      obtain ⟨hTd, hRest⟩ := not_or.mp fun hOff : td = "" ∨ rest ≠ [] => hOn ⟨hNode, hOff⟩
      obtain rfl := not_not.mp hRest
      obtain rfl : s = "spiffe://" ++ td ++ "/vault/" ++ node :=
        String.toList_inj.mp (by rw [hText]; simp)
      exact .vault hTd (hOne td _ rfl) hNode (hPlain node (by simp)) hServer
    | server td rest =>
      obtain ⟨hTd, hRest⟩ := not_or.mp fun hOff : td = "" ∨ rest ≠ [] => hOn ⟨by simp, hOff⟩
      obtain rfl := not_not.mp hRest
      obtain rfl : s = "spiffe://" ++ td ++ "/vault/server" :=
        String.toList_inj.mp (by rw [hText]; simp)
      exact .server hTd (hOne td _ rfl)

/-- What is off the shapes is taken all the same. -/
theorem exists_accepted_of_offShape (h : OffShape segs) : ∃ role node, Accepted segs role node := by
  unfold OffShape at h
  split at h
  · exact ⟨_, _, .kfe _ _⟩
  · rename_i td leaf rest
    by_cases hServer : leaf = "server"
    · rw [hServer]
      exact ⟨_, _, .server td rest⟩
    · exact ⟨_, _, .vault td leaf rest h.1 hServer⟩
  · exact h.elim

/-- A URI is parsed as it should be unless it is off the shapes. -/
theorem exactlyParsed_iff : ExactlyParsed uri ↔
    ¬ (startsWith (strTrim uri) "spiffe://" = true ∧ OffShape (spiffeSegments (strTrim uri))) := by
  unfold ExactlyParsed
  simp only [parse_ok_iff, spiffeShape_iff]
  generalize spiffeSegments (strTrim uri) = segs
  constructor
  · -- what is off the shapes is taken, and has no shape to be taken for
    rintro h ⟨hScheme, hOff⟩
    obtain ⟨role, node, hAccepted⟩ := exists_accepted_of_offShape hOff
    obtain ⟨-, -, hOn⟩ := (h role node).mp ⟨hScheme, hAccepted⟩
    exact hOn hOff
  · intro hOn role node
    constructor
    · rintro ⟨hScheme, hAccepted⟩
      exact ⟨hScheme, hAccepted, fun hOff => hOn ⟨hScheme, hOff⟩⟩
    · rintro ⟨hScheme, hAccepted, -⟩
      exact ⟨hScheme, hAccepted⟩

end Segments

/-! ## Vault principals -/

section Certificates

variable {uriSans dnsSans allowed : List String} {localNodeId : String} {p : MeshPrincipal}

/--
The node of a vault principal is known, and the first SPIFFE URI names it; or that
URI is of `vault/server`, and the node is the one DNS name that is known.
-/
structure VaultNamed (uriSans dnsSans : List String) (localNodeId : String) (allowed : List String)
    (p : MeshPrincipal) : Prop where
  known : p.nodeId ∈ allowed ∨ p.nodeId = localNodeId
  named : ∃ uri td rest, uriSans.find? (fun uri => startsWith uri "spiffe://") = some uri ∧
    (spiffeSegments (strTrim uri) = td :: "vault" :: p.nodeId :: rest ∧ p.nodeId ≠ "server" ∨
      spiffeSegments (strTrim uri) = td :: "vault" :: "server" :: rest ∧
        dnsSans.filter (fun d => allowed.contains d || d == localNodeId) = [p.nodeId])

/-- The node is that of the path, or the one DNS name that is known. -/
theorem vaultNodeId_ok {pathNode : Option String} {nodeId : String}
    (h : vaultNodeId pathNode dnsSans localNodeId allowed = .ok nodeId) :
    (nodeId ∈ allowed ∨ nodeId = localNodeId) ∧ (pathNode = some nodeId ∨ pathNode = none ∧
      dnsSans.filter (fun d => allowed.contains d || d == localNodeId) = [nodeId]) := by
  unfold vaultNodeId at h
  cases pathNode with
  | some id =>
    dsimp only at h
    split at h
    · cases h
    · rename_i hKnown
      cases h
      simp only [Bool.and_eq_true, Bool.not_eq_true', List.contains_eq_mem, decide_eq_false_iff_not,
        bne_iff_ne, not_and, not_not] at hKnown
      exact ⟨or_iff_not_imp_left.mpr hKnown, .inl rfl⟩
  | none =>
    dsimp only at h
    split at h
    · rename_i hOne
      cases h
      -- what the filter has kept is known
      have hMem : nodeId ∈ dnsSans.filter fun d => allowed.contains d || d == localNodeId := by
        rw [hOne]
        exact List.mem_singleton_self nodeId
      have hKnown := (List.mem_filter.mp hMem).2
      simp only [Bool.or_eq_true, List.contains_eq_mem, decide_eq_true_eq, beq_iff_eq] at hKnown
      exact ⟨hKnown, .inr ⟨rfl, hOne⟩⟩
    · cases h
    · cases h

/-- A vault principal is a known node that its certificate names. -/
theorem vaultNamed (h : principalFromCertSans uriSans dnsSans localNodeId allowed = .ok p)
    (hVault : p.role = .vault) : VaultNamed uriSans dnsSans localNodeId allowed p := by
  unfold principalFromCertSans at h
  cases hFirst : uriSans.find? fun uri => startsWith uri "spiffe://" with
  | none =>
    rw [hFirst] at h
    cases h
  | some uri =>
    rw [hFirst] at h
    dsimp only at h
    split at h
    · cases h
    · cases h
      cases hVault
    · -- a vault, by its path or by a DNS name
      rename_i pathNode hParsed
      split at h
      · cases h
      · rename_i nodeId hNode
        cases h
        obtain ⟨hKnown, hNamed⟩ := vaultNodeId_ok hNode
        refine ⟨hKnown, ?_⟩
        generalize hSegs : spiffeSegments (strTrim uri) = segs
        have hAccepted := (parse_ok_iff.mp hParsed).2
        rw [hSegs] at hAccepted
        cases hAccepted with
        | vault td node rest hNe hServer =>
          rcases hNamed with hSame | ⟨hNone, -⟩
          · cases hSame
            exact ⟨uri, td, rest, hFirst, .inl ⟨hSegs, hServer⟩⟩
          · cases hNone
        | server td rest =>
          rcases hNamed with hSame | ⟨-, hOne⟩
          · cases hSame
          · exact ⟨uri, td, rest, hFirst, .inr ⟨hSegs, hOne⟩⟩

end Certificates

/--
**SPIFFE principals.** A string is parsed exactly as the documented shapes say
unless it starts with the scheme and its segments are off the shapes, and a vault
principal is a known node that its certificate names.
-/
theorem spiffe_exact_iff (uri : String) (uriSans dnsSans : List String) (localNodeId : String)
    (allowed : List String) (p : MeshPrincipal) :
    (ExactlyParsed uri ↔ ¬ (startsWith (strTrim uri) "spiffe://" = true ∧
      OffShape (spiffeSegments (strTrim uri)))) ∧
    (principalFromCertSans uriSans dnsSans localNodeId allowed = .ok p → p.role = .vault →
      VaultNamed uriSans dnsSans localNodeId allowed p) :=
  ⟨exactlyParsed_iff, vaultNamed⟩

/-- No trust domain, or a segment too many. -/
theorem spiffe_fails : ¬ ExactlyParsed "spiffe:///kfe" ∧ ¬ ExactlyParsed "spiffe://td/kfe/admin" ∧
    ¬ ExactlyParsed " spiffe://td/vault/vault-2/x " := by
  refine ⟨fun h => ?_, fun h => ?_, fun h => ?_⟩ <;> exact exactlyParsed_iff.mp h (by decide +kernel)

example : principalFromCertSans ["spiffe://kerosene.lab/vault/server"] ["localhost", "vault-2"]
    "vault-1" ["vault-1", "vault-2"] = .ok ⟨.vault, "vault-2", false⟩ := by
  decide +kernel

end KeroseneVault
