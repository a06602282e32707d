import HomeControl.Main
import HomeControl.Network.Service
import HomeControl.Proofs.Conversation.Mirror
import HomeControl.Proofs.Machine.Isolation
import HomeControl.Proofs.Machine.Pending
import HomeControl.Proofs.Conversation.Visit
import HomeControl.Proofs.Machine.Mirror
import HomeControl.Proofs.Home.Simulation
import HomeControl.Proofs.Protocol.Frames
import HomeControl.Proofs.Protocol.Codec
import HomeControl.Proofs.Home.Format
import HomeControl.Proofs.Home.RoundTrip
import HomeControl.Proofs.Server.Fanout
import HomeControl.Proofs.Home.Reached
import HomeControl.Proofs.Conversation.LineLimit
import HomeControl.Proofs.Server.Drain
import HomeControl.Proofs.Client.Collections
import HomeControl.Proofs.Machine.Actions
import HomeControl.Proofs.Home.Frame
import HomeControl.Proofs.Home.DeviceHistory
import HomeControl.Proofs.Home.Commute
import HomeControl.Proofs.Settings.UserTable
import HomeControl.Proofs.Client.Prompt
import HomeControl.Proofs.Protocol.Buffer
import HomeControl.Proofs.Client.Dialog
import HomeControl.Proofs.Home.Generator
