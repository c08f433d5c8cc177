import HollowNode.Kubeconfig
import HollowNode.Proofs.Base64

namespace HollowNode

inductive Credential
  | token (token : String)
  | certificate (path : String)

/-- The text of a kubeconfig is read as that kubeconfig. -/
def Kubeconfig.ReadsBack (k : Kubeconfig) : Prop := Kubeconfig.ofText? k.write = some k

namespace ClusterAccess

open Kubeconfig

variable {a : ClusterAccess}

/-- What a kubeconfig keeps of the way to a cluster: a file without a name is none, and a file has
the first word. -/
def kept (a : ClusterAccess) : ClusterAccess :=
  let file := a.authorityFile.filter (· ≠ "")
  { a with authorityFile := file, authorityData := if file.isSome then none else a.authorityData }

def kubeconfig (a : ClusterAccess) : Credential → Kubeconfig
  | .token token => .withToken a token
  | .certificate path => .withCertificate a path

/-- The way to a cluster is written with one credential after the other, and is read each time. -/
def rewritten (a : ClusterAccess) : List Credential → Except ConfigFault ClusterAccess
  | [] => .ok a
  | c :: rest => do (← ofText (a.kubeconfig c).write).rewritten rest

theorem kept_of_file {file : String} (h : a.authorityFile = some file) (named : file ≠ "") :
    a.kept = { a with authorityData := none } := by
  have hfile : a.authorityFile.filter (· ≠ "") = a.authorityFile := by
    simp [h, Option.filter, named]
  simp only [kept, hfile]
  simp [h]

theorem kept_of_no_file (h : ∀ file, a.authorityFile = some file → file = "") :
    a.kept = { a with authorityFile := none } := by
  have hfile : a.authorityFile.filter (· ≠ "") = none := by
    refine Option.filter_eq_none_iff.2 fun file hf => ?_
    simpa using h file hf
  simp only [kept, hfile]
  rfl

theorem file_cases (a : ClusterAccess) : (∃ file, a.authorityFile = some file ∧ file ≠ "") ∨
    ∀ file, a.authorityFile = some file → file = "" := by
  by_cases h : ∃ file, a.authorityFile = some file ∧ file ≠ ""
  · exact .inl h
  · exact .inr fun file hf => Classical.byContradiction fun named => h ⟨file, hf, named⟩

@[simp]
theorem kept_kept (a : ClusterAccess) : a.kept.kept = a.kept := by
  rcases file_cases a with ⟨file, h, named⟩ | h
  · rw [kept_of_file h named, kept_of_file (by exact h) named]
  · rw [kept_of_no_file h, kept_of_no_file (by simp)]

@[simp]
theorem toCluster_kept (a : ClusterAccess) : a.kept.toCluster = a.toCluster := by
  rcases file_cases a with ⟨file, h, named⟩ | h
  · simp [kept_of_file h named, toCluster, h, Option.filter, named]
  · have hfile : a.authorityFile.filter (· ≠ "") = none :=
      Option.filter_eq_none_iff.2 fun file hf => by simpa using h file hf
    simp only [kept_of_no_file h, toCluster, hfile]
    rfl

@[simp]
theorem kubeconfig_kept (a : ClusterAccess) (c : Credential) :
    a.kept.kubeconfig c = a.kubeconfig c := by
  cases c <;> simp [kubeconfig, withToken, withCertificate, single]

theorem ofCluster_toCluster (name : String) (hosted : a.host ≠ "") :
    ofCluster ⟨name, a.toCluster⟩ = .ok a.kept := by
  have hserver : a.toCluster.server.isEmpty = false := by
    simpa [toCluster, String.isEmpty_iff] using hosted
  have hdata : (a.toCluster.authorityData.mapM fun data =>
      (Base64.decodeText (Text.trimmed data.toList)).mapError ConfigFault.authorityData) =
        .ok a.kept.authorityData := by
    simp only [toCluster, kept]
    cases (a.authorityFile.filter (· ≠ "")).isSome with
    | true => rfl
    | false =>
        cases a.authorityData with
        | none => rfl
        | some bytes =>
            have decoded := Base64.decodeText_encodeText bytes
            simp only [Option.map_some, Bool.false_eq_true, if_false, Option.mapM_some, decoded]
            rfl
  simp only [ofCluster, hserver, hdata]
  rfl

theorem ofKubeconfig_kubeconfig (hosted : a.host ≠ "") (c : Credential) :
    ofKubeconfig (a.kubeconfig c) = .ok a.kept := by
  have hcurrent : (a.kubeconfig c).currentCluster = some ⟨clusterEntry, a.toCluster⟩ := by
    cases c <;> rfl
  rw [ofKubeconfig, hcurrent]
  exact ofCluster_toCluster clusterEntry hosted

theorem ofText_write (hosted : a.host ≠ "") {c : Credential} (reads : (a.kubeconfig c).ReadsBack) :
    ofText (a.kubeconfig c).write = .ok a.kept := by
  rw [ofText, reads]
  exact ofKubeconfig_kubeconfig hosted c

theorem rewritten_kept (hosted : a.host ≠ "") {hops : List Credential}
    (read : ∀ c ∈ hops, (a.kubeconfig c).ReadsBack) : a.kept.rewritten hops = .ok a.kept := by
  induction hops with
  | nil => rfl
  | cons c hops ih =>
      obtain ⟨first, later⟩ := List.forall_mem_cons.1 read
      rw [rewritten, kubeconfig_kept, ofText_write hosted first]
      exact ih later

/-- A kubeconfig with a token and one with a certificate lead to the same cluster in the same way,
which is the way that was written but for a file without a name, and for the data of the authority
if there is a file. They differ in their one user only. -/
theorem access_kept (a : ClusterAccess) (token path : String) (hosted : a.host ≠ "")
    (byToken : (withToken a token).ReadsBack) (byCertificate : (withCertificate a path).ReadsBack) :
    (ofText (withToken a token).write = .ok a.kept ∧
      ofText (withCertificate a path).write = .ok a.kept) ∧
      (a.kept.host = a.host ∧ a.kept.insecure = a.insecure ∧
        (∀ file, a.kept.authorityFile = some file ↔ a.authorityFile = some file ∧ file ≠ "") ∧
        (∀ file, a.authorityFile = some file → file ≠ "" → a.kept.authorityData = none) ∧
        ((∀ file, a.authorityFile = some file → file = "") →
          a.kept.authorityData = a.authorityData)) ∧
      a.kept.kept = a.kept ∧
      (∀ hops, hops ≠ [] → (∀ c ∈ hops, (a.kubeconfig c).ReadsBack) →
        a.rewritten hops = .ok a.kept) ∧
      (withCertificate a path).users = [⟨userEntry, ⟨some path, some path, none⟩⟩] ∧
      withToken a token =
        { withCertificate a path with users := [⟨userEntry, ⟨none, none, some token⟩⟩] } := by
  refine ⟨⟨ofText_write (c := .token token) hosted byToken,
    ofText_write (c := .certificate path) hosted byCertificate⟩, ⟨rfl, rfl, ?_, ?_, ?_⟩,
    kept_kept a, ?_, rfl, rfl⟩
  · intro file
    simp [kept, Option.filter_eq_some_iff]
  · intro file h named
    rw [kept_of_file h named]
  · intro h
    rw [kept_of_no_file h]
  · rintro (_ | ⟨c, hops⟩) some read
    · exact absurd rfl some
    · obtain ⟨first, later⟩ := List.forall_mem_cons.1 read
      rw [rewritten, ofText_write hosted first]
      exact rewritten_kept hosted later

/-- The name of the authority's file is empty, so that its data counts. -/
def unnamedFile : ClusterAccess := ⟨"https://h", some "", some [45, 0, 255, 10], true⟩

theorem unnamedFile_kept :
    unnamedFile.kept = ⟨"https://h", none, some [45, 0, 255, 10], true⟩ ∧
      ofText (withToken unnamedFile "01.5").write = .ok unnamedFile.kept ∧
      unnamedFile.rewritten [.certificate "/c: #", .token "01.5", .certificate "/c: #"] =
        .ok unnamedFile.kept := by
  -- The reader runs on the characters that are written, without the text that they make up.
  have byToken : (withToken unnamedFile "01.5").ReadsBack := by
    rw [ReadsBack, ofText?, Yaml.Document.ofText?, Yaml.Token.ofText?, write, Yaml.Value.write,
      String.toList_ofList]
    decide +kernel
  have byCertificate : (withCertificate unnamedFile "/c: #").ReadsBack := by
    rw [ReadsBack, ofText?, Yaml.Document.ofText?, Yaml.Token.ofText?, write, Yaml.Value.write,
      String.toList_ofList]
    decide +kernel
  obtain ⟨⟨first, -⟩, -, -, hops, -⟩ :=
    access_kept unnamedFile _ _ (by decide) byToken byCertificate
  refine ⟨by decide, first, hops _ (List.cons_ne_nil _ _) fun c hc => ?_⟩
  simp only [List.mem_cons, List.not_mem_nil, or_false] at hc
  rcases hc with rfl | rfl | rfl
  · exact byCertificate
  · exact byToken
  · exact byCertificate

end ClusterAccess

end HollowNode
