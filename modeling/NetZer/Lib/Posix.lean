import Mathlib.Data.List.Basic

/-! # POSIX processes and `std::io` errors

What a program sees of the kernel: errors as `std::io::Error` reports them,
and the credentials of a process with the two calls that change them.
-/

namespace Posix

/-! ## Errors -/

/-- `std::io::ErrorKind`, as far as programs build errors with it. -/
inductive ErrorKind where
  | invalidInput
  | invalidData
deriving DecidableEq, Repr

/-- `std::io::Error`: an `errno`, or a kind with a message. -/
inductive IoError where
  | os (errno : Nat)
  | custom (kind : ErrorKind) (message : String)
deriving DecidableEq, Repr

/-- `EPERM`. -/
def eperm : Nat := 1

/-- `Write::write_all` on a file or a connection that takes `accepted` more
bytes: what has gone into it afterwards, and whether all bytes have. -/
def writeAll (written bytes : List UInt8) (accepted : Nat) : List UInt8 × Bool :=
  (written ++ bytes.take accepted, decide (bytes.length ≤ accepted))

/-! ## Credentials -/

/-- `uid_t`. -/
abbrev Uid := UInt32

/-- `gid_t`. -/
abbrev Gid := UInt32

/-- User and group ids of a process: real, effective and saved, and the
supplementary groups. -/
structure Credentials where
  ruid : Uid
  euid : Uid
  suid : Uid
  rgid : Gid
  egid : Gid
  sgid : Gid
  groups : List Gid
deriving DecidableEq, Repr

namespace Credentials

/-- Appropriate privileges for `setuid` and `setgid`: effective user id 0. -/
def Privileged (c : Credentials) : Prop := c.euid = 0

instance (c : Credentials) : Decidable c.Privileged :=
  inferInstanceAs (Decidable (_ = _))

/-- `setuid`: a privileged process sets all three user ids. Any other process
may set its effective user id to the real or the saved one. The id `(uid_t)-1`,
which Linux always refuses with `EINVAL`, is no exception here: who uses this
adds what a kernel refuses besides. -/
def setuid (c : Credentials) (uid : Uid) : Except Nat Credentials :=
  if c.Privileged then .ok { c with ruid := uid, euid := uid, suid := uid }
  else if uid = c.ruid ∨ uid = c.suid then .ok { c with euid := uid }
  else .error eperm

/-- `setgid`: as `setuid`, on the group ids, `(gid_t)-1` included. The supplementary
groups stay. -/
def setgid (c : Credentials) (gid : Gid) : Except Nat Credentials :=
  if c.Privileged then .ok { c with rgid := gid, egid := gid, sgid := gid }
  else if gid = c.rgid ∨ gid = c.sgid then .ok { c with egid := gid }
  else .error eperm

/-- No trace of root is left: none of the ids is 0, and no group is. -/
structure Rootless (c : Credentials) : Prop where
  ruid : c.ruid ≠ 0
  euid : c.euid ≠ 0
  suid : c.suid ≠ 0
  rgid : c.rgid ≠ 0
  egid : c.egid ≠ 0
  sgid : c.sgid ≠ 0
  groups : (0 : Gid) ∉ c.groups

/-! ## Giving up root -/

theorem setuid_of_privileged {c : Credentials} (h : c.Privileged) (uid : Uid) :
    c.setuid uid = .ok { c with ruid := uid, euid := uid, suid := uid } := by
  simp [setuid, h]

theorem setgid_of_privileged {c : Credentials} (h : c.Privileged) (gid : Gid) :
    c.setgid gid = .ok { c with rgid := gid, egid := gid, sgid := gid } := by
  simp [setgid, h]

/-- Only a privileged process can change its real user id. -/
theorem setuid_ruid {c c' : Credentials} {uid : Uid} (hc : ¬ c.Privileged)
    (h : c.setuid uid = .ok c') : c'.ruid = c.ruid := by
  simp only [setuid, hc, if_false] at h
  split at h
  · cases h
    rfl
  · cases h

theorem setgid_ruid {c c' : Credentials} {gid : Gid} (h : c.setgid gid = .ok c') :
    c'.ruid = c.ruid ∧ c'.euid = c.euid := by
  unfold setgid at h
  split at h
  · cases h
    exact ⟨rfl, rfl⟩
  · split at h
    · cases h
      exact ⟨rfl, rfl⟩
    · cases h

/-- `setgid` then `setuid` from real user id 0: root is gone if and only if
the process was privileged, both new ids are other ones, and group 0 was not a
supplementary group, since neither call changes these. -/
theorem rootless_of_setgid_setuid_iff {c c' c'' : Credentials} {uid : Uid} {gid : Gid}
    (hroot : c.ruid = 0) (hgid : c.setgid gid = .ok c') (huid : c'.setuid uid = .ok c'') :
    c''.Rootless ↔ c.Privileged ∧ uid ≠ 0 ∧ gid ≠ 0 ∧ (0 : Gid) ∉ c.groups := by
  by_cases hpriv : c.Privileged
  · rw [setgid_of_privileged hpriv, Except.ok.injEq] at hgid
    subst hgid
    have hpriv' : Privileged { c with rgid := gid, egid := gid, sgid := gid } := hpriv
    rw [setuid_of_privileged hpriv', Except.ok.injEq] at huid
    subst huid
    constructor
    · intro h
      exact ⟨hpriv, h.ruid, h.rgid, h.groups⟩
    · rintro ⟨-, hu, hg, hgroups⟩
      exact ⟨hu, hu, hu, hg, hg, hg, hgroups⟩
  · -- an unprivileged `setuid` moves the effective user id only: the real one stays 0
    rcases setgid_ruid hgid with ⟨hruid, heuid⟩
    have hpriv' : ¬ c'.Privileged := by
      rwa [Privileged, heuid]
    have hzero : c''.ruid = 0 := by
      rw [setuid_ruid hpriv' huid, hruid, hroot]
    exact iff_of_false (fun h => h.ruid hzero) fun h => hpriv h.1

/-- When an unprivileged process with real user id 0 gets through both calls. -/
theorem setgid_setuid_ok_iff {c : Credentials} {uid : Uid} {gid : Gid} (hroot : c.ruid = 0)
    (hpriv : ¬ c.Privileged) :
    (∃ c' c'', c.setgid gid = .ok c' ∧ c'.setuid uid = .ok c'') ↔
      (gid = c.rgid ∨ gid = c.sgid) ∧ (uid = 0 ∨ uid = c.suid) := by
  constructor
  · rintro ⟨c', c'', hgid, huid⟩
    simp only [setgid, hpriv, if_false] at hgid
    split at hgid
    · rename_i hg
      cases hgid
      simp only [setuid, Privileged, show ¬ c.euid = 0 from hpriv, if_false, hroot] at huid
      split at huid
      · rename_i hu
        exact ⟨hg, hu⟩
      · cases huid
    · cases hgid
  · rintro ⟨hg, hu⟩
    refine ⟨{ c with egid := gid }, { c with egid := gid, euid := uid }, ?_, ?_⟩
    · simp [setgid, hpriv, hg]
    · simp [setuid, Privileged, show ¬ c.euid = 0 from hpriv, hroot, hu]

end Credentials

end Posix
