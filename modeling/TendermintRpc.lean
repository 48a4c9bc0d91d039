import TendermintRpc.Response
import TendermintRpc.Query.Basic
import TendermintRpc.Query.Escape
import TendermintRpc.Query.Render
import TendermintRpc.Query.Decode
import TendermintRpc.Query.Identity
import TendermintRpc.Client.Validators
import TendermintRpc.Client.Health
