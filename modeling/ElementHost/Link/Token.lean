/-!
# The token of a link

A link has one token.  Whoever holds it may use the bus.  Asking for a held token is answered with
a denial, never with a wait, and the token does not know its holder: anyone may give it up.

* `Token`, `Grant`;
* `Token.acquire`, `Token.release`.
-/

namespace ElementHost

/-- The token of a link: held or free. -/
structure Token where
  held : Bool := false
  deriving DecidableEq, Repr, Inhabited

/-- The answer to asking for a token. -/
inductive Grant
  | granted
  | denied
  deriving DecidableEq, Repr

namespace Token

/-- Takes the token if it is free. -/
def acquire (token : Token) : Grant × Token :=
  if token.held then (.denied, token) else (.granted, ⟨true⟩)

/-- Frees the token, whoever holds it. -/
def release (_ : Token) : Token := ⟨false⟩

/-- After asking, the token is held either way. -/
@[simp] theorem held_acquire (token : Token) : token.acquire.2.held = true := by
  unfold acquire
  split <;> simp_all

/-- A token is granted exactly when it is free. -/
theorem acquire_granted_iff (token : Token) : token.acquire.1 = .granted ↔ token.held = false := by
  unfold acquire
  split <;> simp_all

end Token

end ElementHost
