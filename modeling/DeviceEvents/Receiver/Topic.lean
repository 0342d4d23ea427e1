import DeviceEvents.Store.Error
import DeviceEvents.Text.Blank
/-
  DeviceEvents.Receiver.Topic — topics that name a tenant and a device.

  A topic is a tenant and a device token around the first slash, either with blanks around
  it. The tenant is not empty, the token is not empty and holds no slash.
-/

namespace DeviceEvents

structure Topic where
  tenant : String
  deviceToken : String
  deriving DecidableEq, Repr

namespace Topic

def parse (text : String) : Except Refusal Topic :=
  let cs := text.toList
  match cs.dropWhile (· != '/') with
  | [] =>
    .error (.invalidEventRequest ("invalid topic '" ++ text ++
      "': expected '\x7btenant_id\x7d/\x7bdevice_token\x7d'"))
  | _ :: rest =>
    let tenant := Text.trim (String.ofList (cs.takeWhile (· != '/')))
    let token := Text.trim (String.ofList rest)
    if tenant.isEmpty then .error (.invalidEventRequest "tenant id cannot be empty in topic")
    else if token.isEmpty || token.toList.contains '/' then
      .error (.invalidEventRequest ("invalid device token in topic '" ++ text ++ "'"))
    else .ok ⟨tenant, token⟩

end Topic
end DeviceEvents
