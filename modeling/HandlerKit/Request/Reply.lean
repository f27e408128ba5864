import HandlerKit.Request.Basic

/-!
# Replies

A reply is framed as `<sender> <len>:<connections>, <payload>`: the sender, a blank, the
connection ids as a TNetstring string, a blank, and the payload. One reply may address up to
128 connections, their ids joined by blanks. Since tokens carry no escaping, an empty sender or
id, or one with a blank in it, is refused.

`http` lays out a minimal HTTP/1.1 response to carry as a payload.
-/

namespace HandlerKit.Reply

/-- Refuse an empty token or one with a blank. -/
def checkToken (field : Field) (t : Bytes) : Except Error Unit :=
  if t = [] then .error (.malformed (.emptyToken field))
  else if t.contains Request.blank then .error (.malformed (.embeddedSpace field))
  else .ok ()

/-- The decimal digits of a number, as bytes. -/
def decimal (n : Nat) : Bytes := Bytes.ofString (toString n)

/-- Frame a reply to the connections in `connection` (one id, or several joined by blanks). -/
def frame (sender connection payload : Bytes) : Except Error Bytes := do
  checkToken .sender sender
  return sender ++ [Request.blank] ++ decimal connection.length ++ [58] ++ connection
    ++ [44, Request.blank] ++ payload

/-- Frame one reply addressed to several connections. -/
def frameMany (sender : Bytes) (ids : List Bytes) (payload : Bytes) : Except Error Bytes := do
  if ids = [] then throw (.malformed .noConnectionIds)
  if maxConnectionIds < ids.length then throw (.malformed (.tooManyConnectionIds ids.length))
  ids.forM (checkToken .connection)
  frame sender (ids.intersperse [Request.blank]).flatten payload

/-- A minimal HTTP/1.1 response: status line, length, the given headers, a blank line, body. -/
def http (body : Bytes) (code : Nat) (status : String) (headers : List (String × String)) :
    Bytes :=
  let head := "HTTP/1.1 " ++ toString code ++ " " ++ status ++ "\r\nContent-Length: "
    ++ toString body.length ++ "\r\n"
    ++ String.join (headers.map fun h => h.1 ++ ": " ++ h.2 ++ "\r\n") ++ "\r\n"
  Bytes.ofString head ++ body

end HandlerKit.Reply
