import VynxDesk.Connection.State

/-!
# Credentials

The checks a login passes: the password against the temporary password, the permanent
password, its preset and the recent session, and the peer's ID against the whitelist.
-/

namespace VynxDesk

/-- `constant_time_eq`: the comparison reads both byte strings to the end. -/
def constantTimeEq (a b : Bytes) : Bool :=
  if a.length ≠ b.length then false
  else (List.zipWith (fun x y => x ^^^ y) a b).foldl (fun x y => x ||| y) 0 == 0

/-- The UTF-8 encoding of a string. -/
def utf8 (s : String) : Bytes := s.toByteArray.data.toList

/-! ### The ID whitelist -/

/-- The main loop of `wildcard_match`, over the pattern `p` and the text `t`.  `star` is the
position after the last `*` of the pattern and the position of the text it was tried at. -/
def wildcardLoop (p t : List Char) (pi ti : Nat) (star : Option (Nat × Nat))
    (hstar : ∀ x ∈ star, x.2 ≤ ti) : Bool :=
  if hti : ti < t.length then
    if p[pi]? = some '*' then
      wildcardLoop p t (pi + 1) ti (some (pi + 1, ti)) (by simp)
    else if pi < p.length ∧ (p[pi]? = some '?' ∨ p[pi]? = t[ti]?) then
      wildcardLoop p t (pi + 1) (ti + 1) star (fun x hx => Nat.le_succ_of_le (hstar x hx))
    else
      match star with
      | some (sp, st) => wildcardLoop p t sp (st + 1) (some (sp, st + 1)) (by simp)
      | none => false
  else ((p.drop pi).dropWhile (· == '*')).isEmpty
termination_by
  (match star with | some (_, st) => t.length - st | none => t.length + 1,
    (p.length - pi) + (t.length - ti))
decreasing_by
  · rename_i hp
    have hlt : pi < p.length := by
      by_contra h
      rw [List.getElem?_eq_none (Nat.le_of_not_lt h)] at hp
      cases hp
    cases star with
    | none =>
        apply Prod.Lex.left
        dsimp only
        omega
    | some x =>
        have hx := hstar x rfl
        dsimp only
        rcases Nat.lt_or_eq_of_le hx with h | h
        · apply Prod.Lex.left
          omega
        · rw [h]
          apply Prod.Lex.right
          omega
  · apply Prod.Lex.right
    omega
  · have hx := hstar (sp, st) rfl
    apply Prod.Lex.left
    dsimp only at *
    omega

/-- `wildcard_match`: `*` matches any sequence of characters and `?` exactly one, ignoring
case. -/
def wildcardMatch (h : Host) (pattern text : String) : Bool :=
  wildcardLoop (h.toLowercase (trim pattern).toList) (h.toLowercase (trim text).toList) 0 0 none
    (by simp)

/-- `id_whitelist_allows`.  An empty whitelist allows everyone; the part of an ID before `@` is
matched as well. -/
def idWhitelistAllows (h : Host) (idWhitelist : List String) (myId : String) : Bool :=
  if idWhitelist.isEmpty then true
  else
    let bareId := String.ofList (myId.toList.takeWhile (· ≠ '@'))
    idWhitelist.any (fun x => wildcardMatch h x myId || wildcardMatch h x bareId)

namespace Conn

/-- `Connection::check_id_whitelist`.  The failure budget is consulted before the match. -/
def checkIdWhitelist (h : Host) (e : Env) (c : Conn) : Conn × Bool :=
  if e.idWhitelist.isEmpty then (c, true)
  else
    match e.checkFailure 2 with
    | some err => (c.sendLoginError e err, false)
    | none =>
        if idWhitelistAllows h e.idWhitelist c.auth.lr.myId.val then (c, true)
        else
          ((c.emit (.updateFailure 2 false)).sendLoginError e "Your ID is blocked by the peer",
            false)

/-! ### Passwords -/

/-- `Connection::verify_h1`. -/
def verifyH1 (h : Host) (c : Conn) (h1 : Bytes) : Bool :=
  constantTimeEq (h.sha256 (h1 ++ utf8 c.challenge)) c.auth.lr.password

/-- `Connection::validate_password_plain`. -/
def validatePasswordPlain (h : Host) (c : Conn) (password : String) : Bool :=
  if password.isEmpty then false
  else c.verifyH1 h (h.sha256 (utf8 password ++ utf8 c.salt))

/-- `Connection::validate_password_storage`: hashed storage, or plaintext storage when it does
not decode. -/
def validatePasswordStorage (h : Host) (e : Env) (c : Conn) (storage : String) : Bool :=
  if storage.isEmpty then false
  else
    match e.decodePermanentH1 storage with
    | some h1 => c.verifyH1 h h1
    | none => c.validatePasswordPlain h storage

/-- `Connection::validate_preset_password_storage`. -/
def validatePresetPasswordStorage (h : Host) (e : Env) (c : Conn) (storage salt : String) :
    Bool :=
  if salt.isEmpty then c.validatePasswordPlain h storage
  else
    match e.decodePresetH1 storage with
    | some h1 => c.verifyH1 h h1
    | none => false

/-- The part of `Connection::validate_password` about the temporary password. -/
def temporaryPasswordValid (h : Host) (e : Env) (c : Conn) : Bool :=
  e.temporaryEnabled && c.validatePasswordPlain h e.temporaryPassword

/-- The part of `Connection::validate_password` about the permanent password.  Storage that is
not usable for authentication is never compared. -/
def permanentPasswordValid (h : Host) (e : Env) (c : Conn) (allowPermanentPassword : Bool) :
    Bool :=
  (e.permanentEnabled || allowPermanentPassword) &&
    if e.localStorage.isEmpty then
      e.presetUsable && c.validatePresetPasswordStorage h e e.presetStorage e.presetSalt
    else e.localUsable && c.validatePasswordStorage h e e.localStorage

/-- `Connection::validate_password`. -/
def validatePassword (h : Host) (e : Env) (c : Conn) (allowPermanentPassword : Bool) :
    Conn × Bool :=
  if c.temporaryPasswordValid h e then
    ((c.emit (.updateSession (some e.temporaryPassword) (some false))).emit
      (.checkUpdateTemporaryPassword true), true)
  else (c, c.permanentPasswordValid h e allowPermanentPassword)

/-- `Connection::is_recent_session`. -/
def isRecentSession (h : Host) (e : Env) (c : Conn) (tfa : Bool) : Bool :=
  match e.session tfa with
  | some session =>
      !c.auth.lr.password.isEmpty &&
        (tfa && session.tfa || !tfa && c.validatePasswordPlain h session.randomPassword)
  | none => false

end Conn

end VynxDesk
