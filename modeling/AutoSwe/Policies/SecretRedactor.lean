import AutoSwe.Domain.Values

/-!
# The secret redactor

Everything an agent produced passes through the redactor before it is
persisted. Values under a key that names a credential are replaced as a whole;
texts lose what looks like one.
-/

namespace AutoSwe

def sensitiveKeyExact : List String :=
  ["key", "api_key", "apikey", "api-key", "secret", "password", "passwd", "pwd", "token", "auth",
    "authorization", "credential", "credentials", "private_key", "access_key", "auth_token",
    "access_token", "refresh_token", "secret_key", "client_secret", "aws_secret",
    "aws_secret_access_key", "admin_token", "session_token", "jwt", "x-api-key",
    "connection_string", "dsn"]

/-- `^.*[-_](key|secret|…)$` -/
def sensitiveKeySuffixes : List String :=
  ["key", "secret", "password", "passwd", "token", "credentials", "auth", "jwt"]

/-- `^(api_?key|secret|…)$` -/
def sensitiveKeyNames : List String :=
  ["api_key", "apikey", "secret", "password", "passwd", "auth_token", "authtoken", "access_key",
    "accesskey", "secret_key", "secretkey", "private_key", "privatekey", "credentials", "token",
    "auth", "admin_token", "admintoken", "client_secret", "clientsecret", "dsn"]

/-- A pattern's `$` also matches before a newline at the end. -/
def lineOf (key : List Char) : List Char :=
  if key.getLast? = some '\n' then key.dropLast else key

def isSensitiveKey (key : String) : Bool :=
  let lower := key.toList.map Char.toLower
  sensitiveKeyExact.any (·.toList = lower) ||
    ('\n' ∉ lineOf lower && sensitiveKeySuffixes.any fun word =>
      ('-' :: word.toList).isSuffixOf (lineOf lower) ||
        ('_' :: word.toList).isSuffixOf (lineOf lower)) ||
    sensitiveKeyNames.any (·.toList = lineOf lower)

mutual
/-- `text` is what the patterns for credentials leave of a text. -/
def redact (text : String → String) : Json → Json
  | .null => .null
  | .bool value => .bool value
  | .num value => .num value
  | .float value => .float value
  | .str value => .str (text value)
  | .arr items => .arr (redactItems text items)
  | .obj fields => .obj (redactFields text fields)

def redactItems (text : String → String) : List Json → List Json
  | [] => []
  | item :: rest => redact text item :: redactItems text rest

def redactFields (text : String → String) : List (String × Json) → List (String × Json)
  | [] => []
  | (key, value) :: rest =>
    (key, if isSensitiveKey key then .str "[REDACTED]" else redact text value) ::
      redactFields text rest
end

variable {text : String → String}

theorem redactFields_eq_map (fields : List (String × Json)) :
    redactFields text fields = fields.map fun field =>
      (field.1, if isSensitiveKey field.1 then .str "[REDACTED]" else redact text field.2) := by
  induction fields with
  | nil => rfl
  | cons field rest ih => simp [redactFields, ih]

/-- Redaction keeps every field, and what stands under a harmless key is what was
there, redacted. -/
theorem redact_get? (document : Json) (hkey : isSensitiveKey key = false) :
    (redact text document).get? key = (document.get? key).map (redact text) := by
  cases document with
  | obj fields =>
    simp only [redact, Json.get?, redactFields_eq_map]
    induction fields with
    | nil => rfl
    | cons field rest ih =>
      by_cases hfield : field.1 = key
      · simp [hfield, hkey]
      · simpa [hfield] using ih
  | _ => rfl

end AutoSwe
