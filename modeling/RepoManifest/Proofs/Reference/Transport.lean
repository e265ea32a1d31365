import RepoManifest.Proofs.Text.Cut
import RepoManifest.Reference.Basic

/-!
# Clone addresses without a scheme

An address of the form `git@host:path` has no escapes: it is read by cutting it at its first colon,
or behind the bracket that closes a numeric host. Cut so, it names the host and the path that the
address over ssh names, if no colon stands elsewhere in the host.
-/

namespace RepoManifest
namespace RepositoryRef

open Text

/-- The host of a reference: that of its domain. -/
def host (r : RepositoryRef) : String := (splitDomain r.domain).2

/-- The address over ssh names the host and the path. -/
theorem cloneUrl_ssh (r : RepositoryRef) :
    r.cloneUrl .ssh = "ssh://git@" ++ r.host ++ "/" ++ r.path := rfl

/-- The address without a scheme has a colon between the host and the path. -/
theorem toList_cloneUrl_git (r : RepositoryRef) :
    (r.cloneUrl .git).toList = ("git@" ++ r.host).toList ++ [':'] ++ (r.path ++ ".git").toList := by
  have hurl : r.cloneUrl .git = "git@" ++ r.host ++ ":" ++ r.path ++ ".git" := rfl
  rw [hurl]
  simp only [String.toList_append, List.append_assoc]
  rfl

/-- The address without a scheme names the host and the path that the address over ssh names: cut at
its first colon if the host has none, and cut behind the closing bracket if the host is a number in
brackets. -/
theorem cut_cloneUrl_git (r : RepositoryRef) :
    r.cloneUrl .ssh = "ssh://git@" ++ r.host ++ "/" ++ r.path ∧
    (':' ∉ r.host.toList → cutAt? [':'] (r.cloneUrl .git).toList =
      some (("git@" ++ r.host).toList, (r.path ++ ".git").toList)) ∧
    ∀ number : String, r.host = "[" ++ number ++ "]" → ']' ∉ number.toList →
      cutAt? "]:".toList (r.cloneUrl .git).toList =
        some (("git@[" ++ number).toList, (r.path ++ ".git").toList) := by
  refine ⟨cloneUrl_ssh r, ?_, ?_⟩
  · intro hcolon
    have hfront : ':' ∉ ("git@" ++ r.host).toList := by
      rw [String.toList_append, List.mem_append, not_or]
      exact ⟨by decide, hcolon⟩
    rw [toList_cloneUrl_git]
    exact cutAt?_append hfront _
  · intro number hhost hbracket
    have hfront : ']' ∉ ("git@[" ++ number).toList := by
      rw [String.toList_append, List.mem_append, not_or]
      exact ⟨by decide, hbracket⟩
    have hlist : (r.cloneUrl .git).toList =
        ("git@[" ++ number).toList ++ "]:".toList ++ (r.path ++ ".git").toList := by
      rw [toList_cloneUrl_git, hhost]
      simp only [String.toList_append, List.append_assoc]
      rfl
    rw [hlist]
    exact cutAt?_append hfront _

/-- A reference whose domain has a scheme and slashes at its end. -/
def schemeRef : RepositoryRef where
  domain := "http://gitlab.com//"
  organization := "group"
  subOrganizations := ["sub"]
  name := "app"

/-- A reference whose host is a number in brackets. -/
def numericRef : RepositoryRef where
  domain := "[2001:db8::1]"
  organization := "org"
  name := "repo"

/-- Both kinds of hosts are found again. -/
theorem cut_cloneUrl_git_bothHosts :
    (':' ∉ schemeRef.host.toList ∧ cutAt? [':'] (schemeRef.cloneUrl .git).toList =
      some ("git@gitlab.com".toList, "group/sub/app.git".toList)) ∧
    (numericRef.host = "[" ++ "2001:db8::1" ++ "]" ∧ ']' ∉ "2001:db8::1".toList ∧
      cutAt? "]:".toList (numericRef.cloneUrl .git).toList =
        some ("git@[2001:db8::1".toList, "org/repo.git".toList)) := by
  have hcolon : ':' ∉ schemeRef.host.toList := by decide +kernel
  have hnumber : numericRef.host = "[" ++ "2001:db8::1" ++ "]" := by decide +kernel
  have hbracket : ']' ∉ "2001:db8::1".toList := by decide
  exact ⟨⟨hcolon, (cut_cloneUrl_git schemeRef).2.1 hcolon⟩, hnumber, hbracket,
    (cut_cloneUrl_git numericRef).2.2 _ hnumber hbracket⟩

/-- The first colon may stand in the brackets of a host: cut there, the address does not name the
host and the path that the address over ssh names. -/
theorem cut_cloneUrl_git_ne_numericRef :
    make "[2001:db8::1]" "org" [] (.str "repo") = .ok numericRef ∧
    numericRef.cloneUrl .ssh = "ssh://git@" ++ numericRef.host ++ "/" ++ numericRef.path ∧
    cutAt? [':'] (numericRef.cloneUrl .git).toList ≠
      some (("git@" ++ numericRef.host).toList, (numericRef.path ++ ".git").toList) := by
  refine ⟨by decide +kernel, cloneUrl_ssh numericRef, ?_⟩
  have hcut : cutAt? [':'] (numericRef.cloneUrl .git).toList =
      some ("git@[2001".toList, "db8::1]:org/repo.git".toList) := by decide +kernel
  rw [hcut]
  decide +kernel

end RepositoryRef
end RepoManifest
