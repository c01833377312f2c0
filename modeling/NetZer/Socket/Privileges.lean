import NetZer.Lib.Posix
import NetZer.Lib.Text

/-! # Dropping privileges

`drop_privileges` of `socket.rs`: a process whose real user id is 0 swaps to
the user behind `sudo`, or to `nobody`. It asks for the real user id only, and
never for the supplementary groups.
-/

namespace NetZer

open Posix

/-- The environment variables `drop_privileges` reads; one that is missing or
not Unicode is `none`. -/
structure SudoEnv where
  sudoUid : Option String
  sudoGid : Option String
deriving DecidableEq, Repr

/-- What the kernel may answer besides what the credentials decide: an error
of either call. Linux always has one, `EINVAL`, for the ids `(uid_t)-1` and
`(gid_t)-1`. -/
structure Refusals where
  setgid : Option Nat
  setuid : Option Nat
deriving DecidableEq, Repr

/-- How `drop_privileges` ends: its result, the credentials of the process
from then on, and what it printed. -/
structure Dropped where
  result : Except IoError Unit
  credentials : Credentials
  printed : List String

def nobodyUid : Uid := 65534

def nobodyGid : Gid := 65534

/-- The ids to swap to. -/
def dropTarget (env : SudoEnv) : Except IoError (Uid × Gid) :=
  match env.sudoUid, env.sudoGid with
  | some uidStr, some gidStr =>
      match Text.parseU32 uidStr with
      | none => .error (.custom .invalidData "Failed to parse SUDO_UID")
      | some uid =>
          match Text.parseU32 gidStr with
          | none => .error (.custom .invalidData "Failed to parse SUDO_GID")
          | some gid => .ok (uid, gid)
  | _, _ => .ok (nobodyUid, nobodyGid)

/-- The message of a successful swap. -/
def dropMessage (env : SudoEnv) (uid : Uid) (gid : Gid) : String :=
  match env.sudoUid, env.sudoGid with
  | some _, some _ =>
      " [SECURITY] Privilege Dropping: Swapped from root to UID=" ++ toString uid.toNat ++
        ", GID=" ++ toString gid.toNat
  | _, _ =>
      " [SECURITY] Privilege Dropping: Swapped from root to 'nobody' (UID=" ++
        toString uid.toNat ++ ", GID=" ++ toString gid.toNat ++ ")"

/-- A call the kernel may refuse for reasons of its own. -/
def orRefused (refusal : Option Nat) (call : Except Nat Credentials) : Except Nat Credentials :=
  match refusal with
  | some errno => .error errno
  | none => call

/-- `drop_privileges`. -/
def dropPrivileges (env : SudoEnv) (refusals : Refusals) (c : Credentials) : Dropped :=
  if c.ruid ≠ 0 then { result := .ok (), credentials := c, printed := [] }
  else
    match dropTarget env with
    | .error e => { result := .error e, credentials := c, printed := [] }
    | .ok (uid, gid) =>
        match orRefused refusals.setgid (c.setgid gid) with
        | .error errno => { result := .error (.os errno), credentials := c, printed := [] }
        | .ok c' =>
            match orRefused refusals.setuid (c'.setuid uid) with
            | .error errno => { result := .error (.os errno), credentials := c', printed := [] }
            | .ok c'' =>
                { result := .ok (), credentials := c'', printed := [dropMessage env uid gid] }

/-! ## When root is gone -/

/-- Where a success means that root is gone. Without real user id 0 nothing is
done, so root has to be gone already. With it, the ids to swap to decide: a
privileged process needs other ids than 0 and no supplementary group 0, and an
unprivileged one must not get through, as its real user id stays. -/
def DropsRoot (env : SudoEnv) (c : Credentials) : Prop :=
  if c.ruid ≠ 0 then c.Rootless
  else
    match dropTarget env with
    | .error _ => True
    | .ok (uid, gid) =>
        if c.Privileged then uid ≠ 0 ∧ gid ≠ 0 ∧ (0 : Gid) ∉ c.groups
        else ¬ ((gid = c.rgid ∨ gid = c.sgid) ∧ (uid = 0 ∨ uid = c.suid))

/-- A success of the swap means that both calls went through. -/
theorem dropPrivileges_ok {env : SudoEnv} {refusals : Refusals} {c : Credentials} {uid : Uid}
    {gid : Gid} (hroot : c.ruid = 0) (htarget : dropTarget env = .ok (uid, gid))
    (hok : (dropPrivileges env refusals c).result = .ok ()) :
    ∃ c', c.setgid gid = .ok c' ∧
      c'.setuid uid = .ok (dropPrivileges env refusals c).credentials := by
  rcases refusals with ⟨setgidError, setuidError⟩
  simp only [dropPrivileges, hroot, htarget, ne_eq, not_true_eq_false, if_false] at hok ⊢
  cases setgidError with
  | some errno => simp [orRefused] at hok
  | none =>
      cases hgid : c.setgid gid with
      | error errno => simp [orRefused, hgid] at hok
      | ok c' =>
          cases setuidError with
          | some errno => simp [orRefused, hgid] at hok
          | none =>
              cases huid : c'.setuid uid with
              | error errno => simp [orRefused, hgid, huid] at hok
              | ok c'' => exact ⟨c', rfl, by simp [orRefused, huid]⟩

/-- The kernel has no reason of its own to refuse. -/
theorem dropPrivileges_of_ok {env : SudoEnv} {c c' c'' : Credentials} {uid : Uid} {gid : Gid}
    (hroot : c.ruid = 0) (htarget : dropTarget env = .ok (uid, gid))
    (hgid : c.setgid gid = .ok c') (huid : c'.setuid uid = .ok c'') :
    dropPrivileges env ⟨none, none⟩ c =
      { result := .ok (), credentials := c'', printed := [dropMessage env uid gid] } := by
  simp [dropPrivileges, hroot, htarget, orRefused, hgid, huid]

/-- A success where `DropsRoot` holds leaves no root behind. -/
theorem rootless_of_dropsRoot {env : SudoEnv} {refusals : Refusals} {c : Credentials}
    (h : DropsRoot env c) (hok : (dropPrivileges env refusals c).result = .ok ()) :
    (dropPrivileges env refusals c).credentials.Rootless := by
  by_cases hroot : c.ruid = 0
  · cases htarget : dropTarget env with
    | error e => simp [dropPrivileges, hroot, htarget] at hok
    | ok ids =>
        rcases ids with ⟨uid, gid⟩
        -- both calls went through, so POSIX says what the ids are
        rcases dropPrivileges_ok hroot htarget hok with ⟨c', hgid, huid⟩
        by_cases hpriv : c.Privileged
        · simp only [DropsRoot, hroot, htarget, hpriv, ne_eq, not_true_eq_false, if_false,
            if_true] at h
          exact (Credentials.rootless_of_setgid_setuid_iff hroot hgid huid).mpr ⟨hpriv, h⟩
        · -- an unprivileged process does not get here
          simp only [DropsRoot, hroot, htarget, hpriv, ne_eq, not_true_eq_false, if_false] at h
          rw [← Credentials.setgid_setuid_ok_iff hroot hpriv] at h
          exact absurd ⟨c', _, hgid, huid⟩ h
  · simpa [DropsRoot, dropPrivileges, hroot] using h

/-- Where the calls are refused for no reason but the credentials, a success
that leaves no root behind is one `DropsRoot` holds of. -/
theorem dropsRoot_of_rootless {env : SudoEnv} {c : Credentials}
    (h : (dropPrivileges env ⟨none, none⟩ c).result = .ok () →
      (dropPrivileges env ⟨none, none⟩ c).credentials.Rootless) : DropsRoot env c := by
  by_cases hroot : c.ruid = 0
  · cases htarget : dropTarget env with
    | error e => simp [DropsRoot, hroot, htarget]
    | ok ids =>
        rcases ids with ⟨uid, gid⟩
        -- a success of both calls gives the condition on what was there before
        have hgone : ∀ c' c'', c.setgid gid = .ok c' → c'.setuid uid = .ok c'' →
            c.Privileged ∧ uid ≠ 0 ∧ gid ≠ 0 ∧ (0 : Gid) ∉ c.groups := by
          intro c' c'' hgid huid
          rw [dropPrivileges_of_ok hroot htarget hgid huid] at h
          exact (Credentials.rootless_of_setgid_setuid_iff hroot hgid huid).mp (h rfl)
        by_cases hpriv : c.Privileged
        · -- a privileged process gets through both calls
          have hpriv' : Credentials.Privileged { c with rgid := gid, egid := gid, sgid := gid } :=
            hpriv
          simp only [DropsRoot, hroot, htarget, hpriv, ne_eq, not_true_eq_false, if_false, if_true]
          exact (hgone _ _ (Credentials.setgid_of_privileged hpriv gid)
            (Credentials.setuid_of_privileged hpriv' uid)).2
        · -- an unprivileged one must not, as its real user id stays
          simp only [DropsRoot, hroot, htarget, hpriv, ne_eq, not_true_eq_false, if_false]
          rw [← Credentials.setgid_setuid_ok_iff hroot hpriv]
          rintro ⟨c', c'', hgid, huid⟩
          exact hpriv (hgone c' c'' hgid huid).1
  · simpa [DropsRoot, dropPrivileges, hroot] using h

/-- Over all outcomes of the calls, success means that root is gone if and
only if `DropsRoot` holds of the environment and the credentials. -/
theorem dropPrivileges_rootless_iff (env : SudoEnv) (c : Credentials) :
    (∀ refusals, (dropPrivileges env refusals c).result = .ok () →
      (dropPrivileges env refusals c).credentials.Rootless) ↔ DropsRoot env c := by
  constructor
  · intro h
    exact dropsRoot_of_rootless (h ⟨none, none⟩)
  · intro h refusals hok
    exact rootless_of_dropsRoot h hok

/-- Started with `sudo` by user 1000, where root is a member of group 0: the
process goes on with group 0. -/
theorem sudo_keeps_group_zero :
    (dropPrivileges ⟨some "1000", some "1000"⟩ ⟨none, none⟩ ⟨0, 0, 0, 0, 0, 0, [0]⟩).result =
        .ok () ∧
      ¬ (dropPrivileges ⟨some "1000", some "1000"⟩ ⟨none, none⟩
        ⟨0, 0, 0, 0, 0, 0, [0]⟩).credentials.Rootless := by
  refine ⟨rfl, fun h => ?_⟩
  have hgroups := h.groups
  revert hgroups
  decide

end NetZer
