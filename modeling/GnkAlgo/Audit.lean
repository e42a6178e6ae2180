import GnkAlgo.Lib.Redaction
import GnkAlgo.Models

/-!
# The audit log

`audit` and `_sanitize` of `backend/app/audit.py`.

* `sanitize` — the metadata as it is stored;
* `audit_logs_eq_iff` — two runs of calls leave the same log exactly when they differ at
  most in what is under sensitive keys of the metadata, at any depth;
* `audit_clean` — nothing is left in the log to sanitize.
-/

namespace GnkAlgo

/-- The scalars of the metadata. -/
inductive JsonValue
  | null
  | bool (value : Bool)
  | number (value : ℚ)
  | text (value : String)
  deriving DecidableEq

abbrev Json := Doc String JsonValue

/-- `SENSITIVE_KEYS`. -/
def sensitiveKeys : List String :=
  ["password", "token", "secret", "authorization", "refresh_token", "access_token", "totp"]

section

variable (lower : String → String)

/-- `any(s in k.lower() for s in SENSITIVE_KEYS)`; `lower` is that of a text. -/
def SensitiveKey (k : String) : Prop := ∃ s ∈ sensitiveKeys, s.toList <:+: (lower k).toList

instance : DecidablePred (SensitiveKey lower) := fun k =>
  inferInstanceAs (Decidable (∃ s ∈ sensitiveKeys, s.toList <:+: (lower k).toList))

def redacted : Json := .scalar (.text "[REDACTED]")

/-- `_sanitize`. -/
def sanitize : Json → Json := Doc.redact (SensitiveKey lower) redacted

/-- The arguments of `audit`, the request by its client. -/
structure AuditCall where
  event : String
  userId : Option Uuid := none
  request : Option (Option String) := none
  targetType : Option String := none
  targetId : Option String := none
  metadata : Option (List (String × Json)) := none

/-- A row of the log. -/
structure AuditLog where
  userId : Option Uuid
  event : String
  targetType : Option String
  targetId : Option String
  ipAddress : Option String
  metadataJson : Json

/-- The row that a call adds. -/
def AuditCall.row (call : AuditCall) : AuditLog where
  userId := call.userId
  event := call.event
  targetType := call.targetType
  targetId := call.targetId
  ipAddress := call.request.join
  metadataJson := sanitize lower (.dict (call.metadata.getD []))

/-- `audit`. -/
def audit (log : List AuditLog) (call : AuditCall) : List AuditLog := log ++ [call.row lower]

/-- Two calls that differ at most in what is under sensitive keys. -/
structure AuditCall.Agree (call call' : AuditCall) : Prop where
  event : call.event = call'.event
  userId : call.userId = call'.userId
  client : call.request.join = call'.request.join
  targetType : call.targetType = call'.targetType
  targetId : call.targetId = call'.targetId
  metadata : Doc.Agree (SensitiveKey lower) (.dict (call.metadata.getD []))
    (.dict (call'.metadata.getD []))

variable {lower} {call call' : AuditCall} {calls calls' : List AuditCall}

theorem AuditCall.row_eq_iff : call.row lower = call'.row lower ↔ call.Agree lower call' := by
  constructor
  · intro h
    obtain ⟨huser, hevent, htype, htarget, hclient, hmetadata⟩ := AuditLog.mk.inj h
    exact ⟨hevent, huser, hclient, htype, htarget, (Doc.redact_eq_iff redacted).1 hmetadata⟩
  · rintro ⟨hevent, huser, hclient, htype, htarget, hmetadata⟩
    unfold AuditCall.row
    rw [hevent, huser, hclient, htype, htarget, sanitize, (Doc.redact_eq_iff redacted).2 hmetadata]

theorem foldl_audit (log : List AuditLog) :
    calls.foldl (audit lower) log = log ++ calls.map (AuditCall.row lower) := by
  induction calls generalizing log with
  | nil => simp
  | cons call calls ih =>
    rw [List.foldl_cons, ih, audit, List.append_assoc]
    rfl

/-- **What the log tells.**  Two runs of calls leave the same log exactly when they agree
call by call: nothing that is under a sensitive key, at whatever depth, is in the log, and
everything else is. -/
theorem audit_logs_eq_iff (lower : String → String) (calls calls' : List AuditCall) :
    calls.foldl (audit lower) [] = calls'.foldl (audit lower) [] ↔
      List.Forall₂ (AuditCall.Agree lower) calls calls' := by
  rw [foldl_audit, foldl_audit, List.nil_append, List.nil_append, ← List.forall₂_eq_eq_eq,
    List.forall₂_map_left_iff, List.forall₂_map_right_iff]
  simp only [AuditCall.row_eq_iff]

/-- Nothing is left to sanitize. -/
theorem audit_clean {row : AuditLog} (h : row ∈ calls.foldl (audit lower) []) :
    sanitize lower row.metadataJson = row.metadataJson := by
  rw [foldl_audit, List.nil_append] at h
  obtain ⟨call, -, rfl⟩ := List.mem_map.1 h
  exact Doc.redact_redact redacted _

end

end GnkAlgo
