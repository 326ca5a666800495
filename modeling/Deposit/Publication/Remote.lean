import Deposit.Http.Fetch
import Deposit.Publication.Run
import Deposit.Repository.MemberNode
import Deposit.Storage.Service

/-!
The world of services at the other end of connections, and a publication in it.
-/

namespace Deposit

/-- The world of a storage service and a member node, both reached by a transport that
may answer differently as time goes by. -/
def World.ofServices (storage : StorageService) (node : MemberNode)
    (transport : Journal → Http.Transport) (machine : Machine) : World where
  toMachine := machine
  pingAnswer journal := node.ping (transport journal)
  documentAnswer journal path := storage.document (transport journal) path
  fileAnswer journal item := storage.file? (transport journal) item
  downloadAnswer journal file := (storage.download (transport journal) file).map .holding
  fetchAnswer journal url := (Http.fetch (transport journal) url).map .holding
  createAnswer journal call := node.create (transport journal) call.pid call.content call.metadata

/-- A publication to the services that the configuration names. The configuration and
the license are checked before any connection is opened. -/
def publishTale (transport : Journal → Http.Transport) (machine : Machine) (config : Config)
    (storageUrl storageToken : String) (request : PublishRequest) :
    Act PublishError PublishReport := do
  (Act.ofExcept config.validate).rename .config
  let _ ← (Act.ofExcept (Config.license request.licenseId)).rename .config
  let node ← (Act.ofExcept
    (MemberNode.ofUrl config.memberNode request.repositoryToken config.userAgent)).rename .auth
  let world := World.ofServices (.ofUrl storageUrl storageToken) node transport machine
  world.publish config request

end Deposit
