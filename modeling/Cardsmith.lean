import Cardsmith.Engine.Sink
import Cardsmith.Program.Main
import Cardsmith.Proofs.Card.BreadthFirst
import Cardsmith.Proofs.Card.RevisionView
import Cardsmith.Proofs.Card.RevisionWalk
import Cardsmith.Proofs.Card.RoundTrip
import Cardsmith.Proofs.Card.Survey
import Cardsmith.Proofs.Engine.ExchangeSession
import Cardsmith.Proofs.Engine.Frames
import Cardsmith.Proofs.Engine.Handshake
import Cardsmith.Proofs.Engine.Line
import Cardsmith.Proofs.Engine.Messages
import Cardsmith.Proofs.Program.Rewriting
import Cardsmith.Proofs.Card.WalkView
import Cardsmith.Proofs.Engine.Pushing
import Cardsmith.Proofs.Engine.Connection
import Cardsmith.Proofs.Engine.ConnectionSession
import Cardsmith.Proofs.Engine.ConnectionOutbound
import Cardsmith.Proofs.Card.Pointer
import Cardsmith.Proofs.Card.Replacement
import Cardsmith.Proofs.Card.RevisionEnd
import Cardsmith.Proofs.Card.RevisionQueue
import Cardsmith.Proofs.Card.Digest
import Cardsmith.Proofs.Card.Saving
import Cardsmith.Proofs.Engine.Abandonment
import Cardsmith.Proofs.Engine.Oversize
import Cardsmith.Proofs.Engine.Filling
import Cardsmith.Proofs.Card.Identifier
import Cardsmith.Proofs.Engine.ErrorCode
