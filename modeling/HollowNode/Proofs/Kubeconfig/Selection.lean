import HollowNode.Kubeconfig

namespace HollowNode

namespace Kubeconfig

variable {α : Type} {name : α → String} {items : List α} {s : String} {a : α} {k : Kubeconfig}
  {e e' : NamedCluster}

def FirstNamed (name : α → String) (s : String) (items : List α) (a : α) : Prop :=
  ∃ before after, items = before ++ a :: after ∧ name a = s ∧ ∀ b ∈ before, name b ≠ s

/-- A context is current, but there is none of that name. -/
def Dangles (k : Kubeconfig) : Prop :=
  k.currentContext ≠ "" ∧ ∀ c ∈ k.contexts, c.name ≠ k.currentContext

/-- The entry that the current context names, or the first one where no context is current. -/
inductive LeadsTo (k : Kubeconfig) : NamedCluster → Prop
  | current {c : NamedContext} {e : NamedCluster}
      (context : FirstNamed NamedContext.name k.currentContext k.contexts c)
      (entry : FirstNamed NamedCluster.name c.context.cluster k.clusters e) : LeadsTo k e
  | first {e : NamedCluster} {rest : List NamedCluster} (unset : k.currentContext = "")
      (unnamed : ∀ c ∈ k.contexts, c.name ≠ "") (entries : k.clusters = e :: rest) : LeadsTo k e

theorem find?_eq_some_iff_firstNamed :
    items.find? (name · = s) = some a ↔ FirstNamed name s items a := by
  rw [List.find?_eq_some_iff_append, FirstNamed]
  constructor
  · rintro ⟨named, before, after, rfl, others⟩
    exact ⟨before, after, rfl, by simpa using named, fun b hb => by simpa using others b hb⟩
  · rintro ⟨before, after, rfl, named, others⟩
    exact ⟨by simpa using named, before, after, rfl, fun b hb => by simpa using others b hb⟩

theorem currentCluster_of_named {c : NamedContext}
    (h : FirstNamed NamedContext.name k.currentContext k.contexts c) :
    k.currentCluster = k.clusters.find? (·.name = c.context.cluster) := by
  rw [currentCluster, find?_eq_some_iff_firstNamed.2 h]

theorem currentCluster_of_unnamed (h : ∀ c ∈ k.contexts, c.name ≠ k.currentContext) :
    k.currentCluster = k.clusters.head? := by
  have absent : k.contexts.find? (·.name = k.currentContext) = none := by
    rw [List.find?_eq_none]
    intro c hc
    simpa using h c hc
  rw [currentCluster, absent]

theorem named_or_unnamed (k : Kubeconfig) :
    (∃ c, FirstNamed NamedContext.name k.currentContext k.contexts c) ∨
    ∀ c ∈ k.contexts, c.name ≠ k.currentContext := by
  cases h : k.contexts.find? (·.name = k.currentContext) with
  | some c => exact .inl ⟨c, find?_eq_some_iff_firstNamed.1 h⟩
  | none =>
      right
      intro c hc
      simpa using List.find?_eq_none.1 h c hc

theorem FirstNamed.mem (h : FirstNamed name s items a) : a ∈ items := by
  obtain ⟨before, after, rfl, -⟩ := h
  simp

theorem FirstNamed.named (h : FirstNamed name s items a) : name a = s := by
  obtain ⟨before, after, -, named, -⟩ := h
  exact named

theorem currentCluster_eq_some_iff (settled : ¬k.Dangles) :
    k.currentCluster = some e ↔ k.LeadsTo e := by
  rcases k.named_or_unnamed with ⟨c, hc⟩ | absent
  · rw [currentCluster_of_named hc, find?_eq_some_iff_firstNamed]
    constructor
    · exact fun entry => .current hc entry
    · intro h
      cases h with
      | @current c' _ context entry =>
          obtain rfl : c' = c := by
            have same := find?_eq_some_iff_firstNamed.2 context
            rw [find?_eq_some_iff_firstNamed.2 hc] at same
            exact (Option.some.inj same).symm
          exact entry
      | first unset unnamed => exact absurd (hc.named.trans unset) (unnamed c hc.mem)
  · have unset : k.currentContext = "" := Classical.byContradiction fun set => settled ⟨set, absent⟩
    rw [currentCluster_of_unnamed absent, List.head?_eq_some_iff]
    constructor
    · rintro ⟨rest, entries⟩
      exact .first unset (unset ▸ absent) entries
    · intro h
      cases h with
      | current context => exact absurd context.named (absent _ context.mem)
      | first _ _ entries => exact ⟨_, entries⟩

theorem LeadsTo.settled (h : k.LeadsTo e) : ¬k.Dangles := by
  rintro ⟨set, absent⟩
  cases h with
  | current context => exact absent _ context.mem context.named
  | first unset => exact set unset

theorem LeadsTo.unique (h : k.LeadsTo e) (h' : k.LeadsTo e') : e = e' := by
  have found := (currentCluster_eq_some_iff h.settled).2 h
  rw [(currentCluster_eq_some_iff h.settled).2 h'] at found
  exact (Option.some.inj found).symm

end Kubeconfig

namespace ClusterAccess

open Kubeconfig

variable {a : ClusterAccess} {e : NamedCluster} {k : Kubeconfig} {s : String} {fault : ConfigFault}

def decoded (data : String) : Except Base64.Fault (List UInt8) :=
  Base64.decodeText (Text.trimmed data.toList)

/-- The way to a cluster is the one in an entry, and nothing of it comes from anywhere else. -/
structure Describes (e : NamedCluster) (a : ClusterAccess) : Prop where
  hosted : e.cluster.server ≠ ""
  host : a.host = e.cluster.server
  file : a.authorityFile = e.cluster.authority
  data : Option.Rel (fun data bytes => decoded data = .ok bytes) e.cluster.authorityData
    a.authorityData
  insecure : a.insecure = e.cluster.skipsVerification

/-- Why there is no way to a cluster in its entry. -/
inductive Refuses (e : NamedCluster) : ConfigFault → Prop
  | noServer (unhosted : e.cluster.server = "") : Refuses e (.noServer e.name)
  | authorityData {data : String} {fault : Base64.Fault} (hosted : e.cluster.server ≠ "")
      (given : e.cluster.authorityData = some data) (unreadable : decoded data = .error fault) :
      Refuses e (.authorityData fault)

theorem ofCluster_of_hosted (hosted : e.cluster.server ≠ "") :
    ofCluster e =
      ((e.cluster.authorityData.mapM
        fun data => (decoded data).mapError ConfigFault.authorityData).map fun data =>
        ⟨e.cluster.server, e.cluster.authority, data, e.cluster.skipsVerification⟩) := by
  simp only [ofCluster, String.isEmpty_iff, hosted, if_false, decoded]

theorem Describes.read (h : Describes e a) : ofCluster e = .ok a := by
  obtain ⟨host, file, data, insecure⟩ := a
  obtain ⟨hosted, rfl, rfl, decodes, rfl⟩ := h
  rw [ofCluster_of_hosted hosted]
  generalize e.cluster.authorityData = given at decodes
  cases decodes with
  | none => rfl
  | some decodes =>
      rw [Option.mapM_some, decodes]
      rfl

theorem Refuses.read (h : Refuses e fault) : ofCluster e = .error fault := by
  cases h with
  | noServer unhosted => simp [ofCluster, unhosted]
  | authorityData hosted given unreadable =>
      rw [ofCluster_of_hosted hosted, given, Option.mapM_some, unreadable]
      rfl

theorem describes_or_refuses (e : NamedCluster) :
    (∃ a, Describes e a) ∨ ∃ fault, Refuses e fault := by
  by_cases hosted : e.cluster.server = ""
  · exact .inr ⟨_, .noServer hosted⟩
  · cases given : e.cluster.authorityData with
    | none => exact .inl ⟨⟨_, _, none, _⟩, hosted, rfl, rfl, by rw [given]; exact .none, rfl⟩
    | some data =>
        cases decodes : decoded data with
        | ok bytes =>
            exact .inl ⟨⟨_, _, some bytes, _⟩, hosted, rfl,
              rfl, by rw [given]; exact .some decodes, rfl⟩
        | error fault => exact .inr ⟨_, .authorityData hosted given decodes⟩

theorem ofCluster_eq_ok_iff : ofCluster e = .ok a ↔ Describes e a := by
  constructor
  · intro h
    rcases describes_or_refuses e with ⟨a', describes⟩ | ⟨fault, refuses⟩
    · obtain rfl : a' = a := Except.ok.inj (describes.read.symm.trans h)
      exact describes
    · exact absurd (refuses.read.symm.trans h) nofun
  · exact Describes.read

theorem ofCluster_eq_error_iff : ofCluster e = .error fault ↔ Refuses e fault := by
  constructor
  · intro h
    rcases describes_or_refuses e with ⟨a, describes⟩ | ⟨fault', refuses⟩
    · exact absurd (describes.read.symm.trans h) nofun
    · obtain rfl : fault' = fault := Except.error.inj (refuses.read.symm.trans h)
      exact refuses
  · exact Refuses.read

theorem ofKubeconfig_eq_ok_iff :
    ofKubeconfig k = .ok a ↔ ∃ e, k.currentCluster = some e ∧ Describes e a := by
  rw [ofKubeconfig]
  cases k.currentCluster with
  | none => simp
  | some e => simp [ofCluster_eq_ok_iff]

theorem ofKubeconfig_eq_error_iff : ofKubeconfig k = .error fault ↔
    (fault = .noCluster ∧ k.currentCluster = none) ∨ ∃ e, k.currentCluster = some e ∧
    Refuses e fault := by
  rw [ofKubeconfig]
  cases k.currentCluster with
  | none => simp [eq_comm]
  | some e => simp [ofCluster_eq_error_iff]

/-- The way to a cluster is read from the one entry to which a kubeconfig leads, and if there is
none, or there is something wrong with it, then none is read, unless the current context is not
there: then it is read from the first entry. -/
theorem entry_selected (s : String) (k : Kubeconfig) (readable : Kubeconfig.ofText? s = some k) :
    (¬k.Dangles →
      (∀ a, ofText s = .ok a ↔ ∃ e, k.LeadsTo e ∧ Describes e a) ∧
      (∀ fault, ofText s = .error fault ↔
        (fault = .noCluster ∧ ∀ e, ¬k.LeadsTo e) ∨ ∃ e, k.LeadsTo e ∧ Refuses e fault)) ∧
    (k.Dangles →
      (∀ a, ofText s = .ok a ↔ ∃ e rest, k.clusters = e :: rest ∧ Describes e a) ∧
      (∀ fault, ofText s = .error fault ↔
        (fault = .noCluster ∧ k.clusters = []) ∨ ∃ e rest, k.clusters = e :: rest ∧
        Refuses e fault)) ∧
    (∀ e e', k.LeadsTo e → k.LeadsTo e' → e = e') ∧
    ∀ fault, ofText s = .error fault → (Failure.config fault).kind = "invalid_config" := by
  have reads : ofText s = ofKubeconfig k := by rw [ofText, readable]
  rw [reads]
  refine ⟨fun settled => ⟨?_, ?_⟩, fun dangles => ⟨?_, ?_⟩, fun e e' h h' => h.unique h',
    fun fault _ => rfl⟩
  · intro a
    simp only [ofKubeconfig_eq_ok_iff, currentCluster_eq_some_iff settled]
  · intro fault
    simp only [ofKubeconfig_eq_error_iff, currentCluster_eq_some_iff settled,
      Option.eq_none_iff_forall_ne_some, ne_eq]
  · intro a
    simp only [ofKubeconfig_eq_ok_iff, currentCluster_of_unnamed dangles.2, List.head?_eq_some_iff]
    exact ⟨fun ⟨e, ⟨rest, entries⟩, describes⟩ => ⟨e, rest, entries, describes⟩,
      fun ⟨e, rest, entries, describes⟩ => ⟨e, ⟨rest, entries⟩, describes⟩⟩
  · intro fault
    simp only [ofKubeconfig_eq_error_iff, currentCluster_of_unnamed dangles.2,
      List.head?_eq_some_iff, List.head?_eq_none_iff, exists_and_right]

/-- Two entries have one name, and so have the contexts before and after them. -/
def repeatedNames : Kubeconfig where
  clusters :=
    [⟨"a", { server := "https://a" }⟩, ⟨"b", { server := "https://b", skipsVerification := true }⟩,
    ⟨"b", { server := "https://c" }⟩]
  contexts := [⟨"x", { cluster := "a" }⟩, ⟨"y", { cluster := "b" }⟩, ⟨"y", { cluster := "a" }⟩]
  currentContext := "y"

theorem readable_repeatedNames : Kubeconfig.ofText? repeatedNames.write = some repeatedNames := by
  rw [Kubeconfig.ofText?, Yaml.Document.ofText?, Yaml.Token.ofText?, write, Yaml.Value.write,
    String.toList_ofList]
  decide +kernel

theorem repeatedNames_selected :
    ofText repeatedNames.write = .ok { host := "https://b", insecure := true } ∧
    ¬repeatedNames.Dangles := by
  have settled : ¬repeatedNames.Dangles :=
    fun h => h.2 _ (List.mem_cons_of_mem _ List.mem_cons_self) rfl
  obtain ⟨selected, -⟩ := (entry_selected _ _ readable_repeatedNames).1 settled
  refine ⟨(selected _).2
    ⟨_, .current ⟨[_], [_], rfl, rfl, by decide⟩ ⟨[_], [_], rfl, rfl, by decide⟩, ?_⟩, settled⟩
  exact ⟨by decide, rfl, rfl, .none, rfl⟩

/-- The context that is current is not there, and the one that is there is for the second
cluster. -/
def absentContext : Kubeconfig where
  apiVersion := "v1"
  kind := "Config"
  clusters := [⟨"a", { server := "https://a" }⟩, ⟨"b", { server := "https://b" }⟩]
  contexts := [⟨"x", { cluster := "b" }⟩]
  currentContext := "y"

theorem readable_absentContext : Kubeconfig.ofText? absentContext.write = some absentContext := by
  rw [Kubeconfig.ofText?, Yaml.Document.ofText?, Yaml.Token.ofText?, write, Yaml.Value.write,
    String.toList_ofList]
  decide +kernel

theorem absentContext_guessed : Kubeconfig.ofText? absentContext.write = some absentContext ∧
    (∀ e, ¬absentContext.LeadsTo e) ∧ ofText absentContext.write = .ok { host := "https://a" } := by
  have dangles : absentContext.Dangles := ⟨by decide, by decide⟩
  have reads : ofText absentContext.write = ofKubeconfig absentContext := by
    rw [ofText, readable_absentContext]
  refine ⟨readable_absentContext, fun e leads => leads.settled dangles, ?_⟩
  rw [reads]
  rfl

end ClusterAccess

end HollowNode
