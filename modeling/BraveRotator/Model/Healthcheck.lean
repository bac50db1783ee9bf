import BraveRotator.Lib.Display
import BraveRotator.Lib.Utf8
import BraveRotator.Model.Config

namespace BraveRotator

open Net

/-- What a connection is good for. -/
structure Peer where
  /-- `write_all` -/
  accepts : List UInt8 → Bool
  /-- What `read_to_end` gets, be it cut short by the timeout. -/
  sends : List UInt8

/-- `TcpStream::connect_timeout` -/
abbrev Network := SocketAddr → Duration → Option Peer

structure Checkup where
  /-- The address to connect to, if it comes to that. -/
  target : Option SocketAddr
  exitCode : Nat

def healthRequest : List UInt8 := Utf8.encode
  "GET /proxy/health HTTP/1.0\r\nHost: localhost\r\nConnection: close\r\n\r\n".toList

/-- The address that `healthcheck` makes of the value of `LISTEN_ADDR`. -/
def healthTarget (listen : String) : Option SocketAddr :=
  match SocketAddr.parse listen.toList with
  | .error _ => none
  | .ok addr =>
    let host :=
      if addr.ip.isUnspecified then if addr.isIpv4 then "127.0.0.1".toList else "::1".toList
      else addr.ip.display
    let localhost : IpAddr := .v4 0x7F000001
    some (.new ((IpAddr.parse host).toOption.getD localhost) addr.port)

/-- The exit code once there is an address to connect to. -/
def askHealth (connectTimeout : Network) (target : SocketAddr) : Nat :=
  match connectTimeout target (.fromSecs 2) with
  | none => 1
  | some peer =>
    if !peer.accepts healthRequest then 1
    else
      let head := Utf8.lossy peer.sends
      if "HTTP/1.1 200".toList.isPrefixOf head || "HTTP/1.0 200".toList.isPrefixOf head then 0
      else 1

def healthcheck (connectTimeout : Network) (env : Env) : Checkup :=
  match healthTarget ((env "LISTEN_ADDR").getD "0.0.0.0:8080") with
  | none => { target := none, exitCode := 2 }
  | some target => { target := some target, exitCode := askHealth connectTimeout target }

end BraveRotator
