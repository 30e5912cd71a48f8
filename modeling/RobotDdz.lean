import RobotDdz.Lib.Loops
import RobotDdz.Cards.Points
import RobotDdz.Cards.Hand
import RobotDdz.Cards.GetHand
import RobotDdz.Cards.Accept
import RobotDdz.Cards.HandOrder
import RobotDdz.Split.Kinds
import RobotDdz.Split.Conserve
import RobotDdz.Split.Summary
import RobotDdz.Split.Partition
import RobotDdz.Split.Legal
import RobotDdz.Split.Ordered
import RobotDdz.Split.Figures
import RobotDdz.Split.KickerRoom
import RobotDdz.AI.Deal
import RobotDdz.AI.LevelZero
import RobotDdz.AI.Higher
import RobotDdz.AI.Control
import RobotDdz.AI.Rearrange
import RobotDdz.AI.Rejudge
import RobotDdz.AI.Kickers
import RobotDdz.AI.OthersBest
import RobotDdz.AI.ChargeClass
import RobotDdz.AI.MostCards
import RobotDdz.AI.Refind
import RobotDdz.AI.Contract
import RobotDdz.Task.Reconcile
import RobotDdz.Net.Decode
import RobotDdz.Net.Lengths
import RobotDdz.Net.Pool
import RobotDdz.Net.Dispatch
import RobotDdz.AI.Resume
import RobotDdz.AI.Rotate
import RobotDdz.Net.Wheel
import RobotDdz.Task.Order
import RobotDdz.Task.Bidding
import RobotDdz.Task.Closing
import RobotDdz.Task.Indices
import RobotDdz.Task.SignUp
import RobotDdz.Task.Delays
import RobotDdz.Game.Auction
import RobotDdz.Old.Server
import RobotDdz.Old.Config
import RobotDdz.Game.Resumed
import RobotDdz.Game.Match
import RobotDdz.Game.Trust
import RobotDdz.Net.Client
import RobotDdz.Net.Config
